import Connectanum.State.MetaMatch
import Connectanum.State.Replay

/-!
# State — BestMatch

Which registration a procedure URI is matched to: an exact one, else the longest prefix, else the
wildcard that `_compareWildcard` puts first.

* `Better`: the order of wildcards, a strict order, total on those with different ids;
* `foldl_keepBest_unbeaten`: a scan for the best one ends with one that nothing beats;
* `Selects`: the entry that `match` has to return;
* `best_match`: what holds of the tables after any registrations and removals.

The id of an entry is that of the registration it was created by.  So the match depends on which
entries there are, with their ids, and not on the order in which they were inserted; but it does depend
on which of two registrations, of one entry or of two, came first (`order_matters`).
-/

namespace Connectanum

open Collections Machine

/-! ### The order of wildcards -/

namespace ProcedureEntry

theorem compareBlocks_step (a b : List Nat) :
    compareBlocks a b =
      if b.headD 0 < a.headD 0 then .lt
      else if a.headD 0 < b.headD 0 then .gt
      else compareBlocks a.tail b.tail := by
  cases a <;> cases b <;> simp [compareBlocks]

theorem compareBlocks_nil : compareBlocks [] [] = .eq := by
  rw [compareBlocks]

theorem compareBlocks_gt_iff (a b : List Nat) :
    compareBlocks a b = .gt ↔ compareBlocks b a = .lt := by
  induction hn : a.length + b.length using Nat.strongRecOn generalizing a b with
  | ind n ih =>
      by_cases hnil : a = [] ∧ b = []
      · rw [hnil.1, hnil.2, compareBlocks_nil]
        exact ⟨nofun, nofun⟩
      · have hshort : a.tail.length + b.tail.length < n := by
          rw [List.length_tail, List.length_tail]
          have : 0 < a.length ∨ 0 < b.length := by
            rcases not_and_or.mp hnil with h | h
            · exact .inl (List.length_pos_iff.mpr h)
            · exact .inr (List.length_pos_iff.mpr h)
          omega
        have htail := ih _ hshort a.tail b.tail rfl
        rw [compareBlocks_step a b, compareBlocks_step b a]
        split
        · next hlt =>
            rw [if_neg (Nat.lt_asymm hlt)]
            exact ⟨nofun, nofun⟩
        · split
          · exact ⟨fun _ => rfl, fun _ => rfl⟩
          · exact htail

/-- Lists that compare as equal compare alike with others, and those before come before. -/
theorem compareBlocks_trans {n : Nat} {a b c : List Nat} (ha : a.length ≤ n) (hb : b.length ≤ n)
    (hc : c.length ≤ n) (hab : compareBlocks a b ≠ .gt) (hbc : compareBlocks b c ≠ .gt) :
    compareBlocks a c ≠ .gt ∧
      (compareBlocks a c = .eq → compareBlocks a b = .eq ∧ compareBlocks b c = .eq) := by
  induction n generalizing a b c with
  | zero =>
      rw [Nat.le_zero, List.length_eq_zero_iff] at ha hb hc
      subst ha hb hc
      rw [compareBlocks_nil]
      exact ⟨nofun, fun h => ⟨h, h⟩⟩
  | succ n ih =>
      have htail := @ih a.tail b.tail c.tail (by rw [List.length_tail]; omega)
        (by rw [List.length_tail]; omega) (by rw [List.length_tail]; omega)
      rw [compareBlocks_step a b] at hab ⊢
      rw [compareBlocks_step b c] at hbc ⊢
      rw [compareBlocks_step a c]
      grind

/-- Entry `a` is more specific than `b`: `_compareWildcard(a, b) < 0`. -/
def Better (a b : ProcedureEntry) : Prop := a.compareWildcard b = .lt

instance (a b : ProcedureEntry) : Decidable (Better a b) := inferInstanceAs (Decidable (_ = _))

/-- Longer blocks of literal segments from the left, then more segments, then the smaller id. -/
theorem better_iff {a b : ProcedureEntry} :
    Better a b ↔ compareBlocks a.wildcardLiteralBlocks b.wildcardLiteralBlocks = .lt ∨
      (compareBlocks a.wildcardLiteralBlocks b.wildcardLiteralBlocks = .eq ∧
        (b.wildcardSegmentCount < a.wildcardSegmentCount ∨
          (a.wildcardSegmentCount = b.wildcardSegmentCount ∧
            a.registrationId < b.registrationId))) := by
  unfold Better compareWildcard
  split
  · next heq =>
      split
      · next hmore => simp [heq, hmore]
      · split
        · next hless => simp [heq, Nat.lt_asymm hless, Nat.ne_of_lt hless]
        · have hsame : a.wildcardSegmentCount = b.wildcardSegmentCount := by omega
          simp [heq, hsame, Nat.compare_eq_lt]
  · next o hne =>
      cases hc : compareBlocks a.wildcardLiteralBlocks b.wildcardLiteralBlocks with
      | eq => exact absurd hc hne
      | lt => simp
      | gt => simp

theorem Better.irrefl (a : ProcedureEntry) : ¬ Better a a := by
  have hswap := compareBlocks_gt_iff a.wildcardLiteralBlocks a.wildcardLiteralBlocks
  rw [better_iff]
  rintro (h | ⟨_, h | ⟨_, h⟩⟩)
  · rw [hswap.mpr h] at h
    cases h
  · exact Nat.lt_irrefl _ h
  · exact Nat.lt_irrefl _ h

theorem Better.trans {a b c : ProcedureEntry} (hab : Better a b) (hbc : Better b c) :
    Better a c := by
  rw [better_iff] at hab hbc ⊢
  obtain ⟨n, ha, hb, hc⟩ : ∃ n, a.wildcardLiteralBlocks.length ≤ n ∧
      b.wildcardLiteralBlocks.length ≤ n ∧ c.wildcardLiteralBlocks.length ≤ n :=
    ⟨a.wildcardLiteralBlocks.length + b.wildcardLiteralBlocks.length +
      c.wildcardLiteralBlocks.length, by omega, by omega, by omega⟩
  have hne : ∀ {x y : ProcedureEntry} {P : Prop},
      (compareBlocks x.wildcardLiteralBlocks y.wildcardLiteralBlocks = .lt ∨
        (compareBlocks x.wildcardLiteralBlocks y.wildcardLiteralBlocks = .eq ∧ P)) →
      compareBlocks x.wildcardLiteralBlocks y.wildcardLiteralBlocks ≠ .gt := by
    rintro x y P (h | ⟨h, _⟩) <;> rw [h] <;> exact nofun
  obtain ⟨hac, heq⟩ := compareBlocks_trans ha hb hc (hne hab) (hne hbc)
  cases hc : compareBlocks a.wildcardLiteralBlocks c.wildcardLiteralBlocks with
  | lt => exact .inl rfl
  | gt => exact absurd hc hac
  | eq =>
      -- equal blocks throughout, so the segments and ids decide
      obtain ⟨hab', hbc'⟩ := heq hc
      rw [hab'] at hab
      rw [hbc'] at hbc
      obtain hab := (hab.resolve_left nofun).2
      obtain hbc := (hbc.resolve_left nofun).2
      exact .inr ⟨rfl, by omega⟩

/-- Of two wildcards with different ids one is more specific. -/
theorem Better.total {a b : ProcedureEntry} (hne : a.registrationId ≠ b.registrationId) :
    Better a b ∨ Better b a := by
  rw [better_iff, better_iff]
  have hswap := compareBlocks_gt_iff a.wildcardLiteralBlocks b.wildcardLiteralBlocks
  have hswap' := compareBlocks_gt_iff b.wildcardLiteralBlocks a.wildcardLiteralBlocks
  cases hab : compareBlocks a.wildcardLiteralBlocks b.wildcardLiteralBlocks with
  | lt => exact .inl (.inl rfl)
  | gt => exact .inr (.inl (hswap.mp hab))
  | eq =>
      cases hba : compareBlocks b.wildcardLiteralBlocks a.wildcardLiteralBlocks with
      | lt => exact .inr (.inl rfl)
      | gt =>
          rw [hswap'.mp hba] at hab
          cases hab
      | eq =>
          rcases Nat.lt_trichotomy a.wildcardSegmentCount b.wildcardSegmentCount with h | h | h
          · exact .inr (.inr ⟨rfl, .inl h⟩)
          · rcases Nat.lt_or_gt_of_ne hne with hid | hid
            · exact .inl (.inr ⟨rfl, .inr ⟨h, hid⟩⟩)
            · exact .inr (.inr ⟨rfl, .inr ⟨h.symm, hid⟩⟩)
          · exact .inl (.inr ⟨rfl, .inl h⟩)

end ProcedureEntry

/-! ### The best of a table -/

section

variable {better : ProcedureEntry → ProcedureEntry → Bool} {rest : List (Ref × ProcedureEntry)}
  {first : Ref × ProcedureEntry}

/-- What a fold ends with is what it started with, or better. -/
theorem foldl_keepBest_from
    (htrans : ∀ x y z : ProcedureEntry, better x y = true → better y z = true → better x z = true) :
    rest.foldl (keepBest better) first = first ∨
      better (rest.foldl (keepBest better) first).2 first.2 = true := by
  induction rest generalizing first with
  | nil => exact .inl rfl
  | cons second rest ih =>
      rw [List.foldl_cons]
      have hlast := @ih (keepBest better first second)
      cases hb : better second.2 first.2 with
      | false =>
          have hkept : keepBest better first second = first := by rw [keepBest, hb, if_neg Bool.false_ne_true]
          rw [hkept] at hlast ⊢
          exact hlast
      | true =>
          have hkept : keepBest better first second = second := by rw [keepBest, hb, if_pos rfl]
          rw [hkept] at hlast ⊢
          rcases hlast with hsame | hmore
          · rw [hsame]
            exact .inr hb
          · exact .inr (htrans _ _ _ hmore hb)

/-- Nothing beats what a fold ends with. -/
theorem foldl_keepBest_unbeaten
    (hirrefl : ∀ x : ProcedureEntry, better x x = false)
    (htrans : ∀ x y z : ProcedureEntry, better x y = true → better y z = true → better x z = true) :
    ∀ x ∈ first :: rest, better x.2 (rest.foldl (keepBest better) first).2 = false := by
  induction rest generalizing first with
  | nil =>
      intro x hx
      rw [List.mem_singleton.mp hx]
      exact hirrefl first.2
  | cons second rest ih =>
      have hrest := @ih (keepBest better first second)
      have hlast := @foldl_keepBest_from better rest (keepBest better first second) htrans
      rw [List.foldl_cons]
      intro x hx
      rw [Bool.eq_false_iff]
      intro hx'
      cases hb : better second.2 first.2 with
      | true =>
          have hkept : keepBest better first second = second := by rw [keepBest, hb, if_pos rfl]
          rw [hkept] at hrest hlast hx'
          rcases List.mem_cons.mp hx with rfl | hx
          · -- the second one beats the first, and so would beat the last
            have hsecond := htrans _ _ _ hb hx'
            rw [hrest second (List.mem_cons_self ..)] at hsecond
            cases hsecond
          · rw [hrest x hx] at hx'
            cases hx'
      | false =>
          have hkept : keepBest better first second = first := by rw [keepBest, hb, if_neg Bool.false_ne_true]
          rw [hkept] at hrest hlast hx'
          rcases List.mem_cons.mp hx with rfl | hx
          · rw [hrest x (List.mem_cons_self ..)] at hx'
            cases hx'
          · rcases List.mem_cons.mp hx with rfl | hx
            · -- the last one is the first or beats it, and the second does not
              rcases hlast with hsame | hmore
              · rw [hsame, hb] at hx'
                cases hx'
              · have hfirst := htrans _ _ _ hx' hmore
                rw [hb] at hfirst
                cases hfirst
            · rw [hrest x (List.mem_cons_of_mem _ hx)] at hx'
              cases hx'

end

/-! ### The tables of any run -/

namespace ProcedureTable

/-- The atlas holds each entry under its own policy and procedure. -/
def Keyed (t : ProcedureTable) : Prop :=
  ∀ p procedure r, t.procedureAtlas.patterns.get? p procedure = some r →
    ∃ e, t.heap.get? r = some e ∧ e.matchPolicy = p ∧ e.procedure = procedure

/-- What the atlas is told: a registration with the settings of its REGISTER, or the removal of
one. -/
inductive AtlasCommand where
  | register (procedure : String) (policy : InvocationPolicy) (matchPolicy : ProcedureMatchPolicy)
      (retryDeduplication : Option RetryDeduplication) (record : RegistrationRecord) (now : Nat)
  | unregister (registrationId : Nat)

/-- The id that a registration has drawn. -/
def AtlasCommand.drawn : AtlasCommand → Option Nat
  | .register _ _ _ _ record _ => some record.registrationId
  | .unregister _ => none

/-- The tables' part of `_registerProcedure` and `_unregisterProcedure`. -/
def obey (t : ProcedureTable) : AtlasCommand → ProcedureTable
  | .register procedure policy matchPolicy retryDeduplication record now =>
      let (table, r) := t.findOrCreateProcedure procedure record.registrationId policy matchPolicy
        now
      match table.heap.get? r with
      | none => table
      | some entry =>
          match RouterStateStore.checkSharedRegistration entry procedure policy matchPolicy
              retryDeduplication record.details with
          | .error _ => table
          | .ok () => table.addRegistration r record
  | .unregister registrationId =>
      match t.findProcedureByRegistrationId registrationId with
      | none => t
      | some (r, entry) => t.unregister r entry registrationId

/-- The tables after a sequence of commands. -/
def after (commands : List AtlasCommand) : ProcedureTable := commands.foldl obey {}

variable {t : ProcedureTable}

theorem Keyed.of_heap {t' : ProcedureTable} (h : t.Keyed)
    (hatlas : ∀ p procedure r, t'.procedureAtlas.patterns.get? p procedure = some r →
      t.procedureAtlas.patterns.get? p procedure = some r)
    (hheap : ∀ r e, t.heap.get? r = some e → ∃ e', t'.heap.get? r = some e' ∧
      e'.matchPolicy = e.matchPolicy ∧ e'.procedure = e.procedure) : t'.Keyed := by
  intro p procedure r hat
  obtain ⟨e, he, hp, hq⟩ := h p procedure r (hatlas p procedure r hat)
  obtain ⟨e', he', hp', hq'⟩ := hheap r e he
  exact ⟨e', he', hp'.trans hp, hq'.trans hq⟩

theorem Keyed.findOrCreate (h : t.Keyed) (procedure : String) (id : Nat)
    (policy : InvocationPolicy) (p : ProcedureMatchPolicy) (now : Nat) :
    (t.findOrCreateProcedure procedure id policy p now).1.Keyed := by
  unfold findOrCreateProcedure
  split
  · exact h
  · intro p' procedure' r hat
    rw [PatternIndex.get?_insert] at hat
    split at hat
    · next hkey =>
        obtain rfl := Option.some.inj hat
        exact ⟨_, by rw [Heap.get?_alloc, if_pos rfl], hkey.1.symm, hkey.2.symm⟩
    · obtain ⟨e, he, hkey⟩ := h p' procedure' r hat
      exact ⟨e, Heap.get?_alloc_of_some _ he, hkey⟩

theorem patterns_dropRegistration {id : Nat} {p : ProcedureMatchPolicy} {procedure : String}
    {r : Ref} (h : (t.dropRegistration id).procedureAtlas.patterns.get? p procedure = some r) :
    t.procedureAtlas.patterns.get? p procedure = some r := by
  unfold dropRegistration ProcedureAtlas.removeRegistration at h
  split at h
  · exact h
  · split at h
    · exact h
    · split at h
      · rw [PatternIndex.get?_erase] at h
        split at h
        · cases h
        · exact h
      · exact h

/-- The atlas leads to no entry that it did not lead to before. -/
theorem patterns_unregister {ref : Ref} {entry : ProcedureEntry} {id : Nat}
    {p : ProcedureMatchPolicy} {procedure : String} {r : Ref}
    (h : (t.unregister ref entry id).procedureAtlas.patterns.get? p procedure = some r) :
    t.procedureAtlas.patterns.get? p procedure = some r := by
  have hdrops : ∀ (ids : List Nat) (t : ProcedureTable),
      (ids.foldl dropRegistration t).procedureAtlas.patterns.get? p procedure = some r →
        t.procedureAtlas.patterns.get? p procedure = some r := by
    intro ids
    induction ids with
    | nil => exact fun _ h => h
    | cons id rest ih => exact fun t h => patterns_dropRegistration (ih (t.dropRegistration id) h)
  have hremove : ∀ (t : ProcedureTable) (e : ProcedureEntry),
      (t.removeProcedure e).procedureAtlas.patterns.get? p procedure = some r →
        t.procedureAtlas.patterns.get? p procedure = some r :=
    fun t e h => hdrops _ t (patterns_dropRegistration h)
  have hmodify : (t.modify ref (·.removeCallee id)).procedureAtlas = t.procedureAtlas := rfl
  have hone := @patterns_dropRegistration (t.modify ref (·.removeCallee id)) id p procedure r
  rw [hmodify] at hone
  unfold ProcedureTable.unregister at h
  dsimp only at h
  split at h
  · exact hone (hremove _ _ h)
  · exact hone h

/-- What an entry is known by. -/
def keyOf (e : ProcedureEntry) : ProcedureMatchPolicy × String × Nat :=
  (e.matchPolicy, e.procedure, e.registrationId)

/-- Two versions of an entry under one key. -/
def SameKey (e e' : ProcedureEntry) : Prop :=
  e'.matchPolicy = e.matchPolicy ∧ e'.procedure = e.procedure ∧
    e'.registrationId = e.registrationId

theorem heap_findOrCreate {procedure : String} {id : Nat} {policy : InvocationPolicy}
    {p : ProcedureMatchPolicy} {now : Nat} {r : Ref} {e : ProcedureEntry}
    (h : (t.findOrCreateProcedure procedure id policy p now).1.heap.get? r = some e) :
    t.heap.get? r = some e ∨ (r = t.heap.next ∧ e.registrationId = id) := by
  unfold findOrCreateProcedure at h
  split at h
  · exact .inl h
  · rw [Heap.get?_alloc] at h
    split at h
    · next hnew =>
        obtain rfl := Option.some.inj h
        exact .inr ⟨hnew, rfl⟩
    · exact .inl h

/-- Every entry there was, with its key, or the one that the registration creates. -/
theorem heap_obey {command : AtlasCommand} {r : Ref} {e : ProcedureEntry}
    (h : (t.obey command).heap.get? r = some e) :
    (∃ e₀, t.heap.get? r = some e₀ ∧ SameKey e₀ e) ∨
      (r = t.heap.next ∧ command.drawn = some e.registrationId) := by
  cases command with
  | unregister id =>
      simp only [obey] at h
      cases hf : t.findProcedureByRegistrationId id with
      | none =>
          rw [hf] at h
          exact .inl ⟨e, h, rfl, rfl, rfl⟩
      | some found =>
          obtain ⟨ref, entry⟩ := found
          rw [hf] at h
          simp only [RouterStateStore.Budget.heap_unregister, Heap.get?_modify] at h
          split at h
          · next hsame =>
              subst hsame
              obtain ⟨e₀, he₀, rfl⟩ := Option.map_eq_some_iff.mp h
              exact .inl ⟨e₀, he₀, removeCallee_matchPolicy .., removeCallee_procedure ..,
                removeCallee_registrationId ..⟩
          · exact .inl ⟨e, h, rfl, rfl, rfl⟩
  | register procedure policy p retryDeduplication record now =>
      have hcreate : ∀ e', (t.findOrCreateProcedure procedure record.registrationId policy p
          now).1.heap.get? r = some e' → SameKey e' e →
          (∃ e₀, t.heap.get? r = some e₀ ∧ SameKey e₀ e) ∨
            (r = t.heap.next ∧
              (AtlasCommand.register procedure policy p retryDeduplication record now).drawn =
                some e.registrationId) := by
        intro e' he' hkey
        rcases heap_findOrCreate he' with hold | ⟨hnew, hid⟩
        · exact .inl ⟨e', hold, hkey⟩
        · exact .inr ⟨hnew, by rw [AtlasCommand.drawn, hkey.2.2, hid]⟩
      simp only [obey] at h
      split at h
      · exact hcreate e h ⟨rfl, rfl, rfl⟩
      · split at h
        · exact hcreate e h ⟨rfl, rfl, rfl⟩
        · simp only [addRegistration, Heap.get?_modify] at h
          split at h
          · next hsame =>
              obtain ⟨e', he', rfl⟩ := Option.map_eq_some_iff.mp h
              exact hcreate e' (hsame ▸ he') ⟨rfl, rfl, rfl⟩
          · exact hcreate e h ⟨rfl, rfl, rfl⟩

theorem Keyed.obey (h : t.Keyed) (command : AtlasCommand) : (t.obey command).Keyed := by
  cases command with
  | unregister id =>
      simp only [ProcedureTable.obey]
      split
      · exact h
      · next r entry hf =>
          refine h.of_heap (fun _ _ _ hat => patterns_unregister hat) fun r' e he => ?_
          rw [RouterStateStore.Budget.heap_unregister, Heap.get?_modify]
          split
          · next hsame =>
              rw [← hsame, he]
              exact ⟨_, rfl, removeCallee_matchPolicy .., removeCallee_procedure ..⟩
          · exact ⟨e, he, rfl, rfl⟩
  | register procedure policy p retryDeduplication record now =>
      have hcreated := h.findOrCreate procedure record.registrationId policy p now
      simp only [ProcedureTable.obey]
      split
      · exact hcreated
      · split
        · exact hcreated
        · refine hcreated.of_heap (fun _ _ _ hat => hat) fun r' e he => ?_
          rw [addRegistration, Heap.get?_modify]
          split
          · next hsame =>
              rw [← hsame, he]
              exact ⟨_, rfl, rfl, rfl⟩
          · exact ⟨e, he, rfl, rfl⟩

/-- The atlas of any run is keyed. -/
theorem keyed_after (commands : List AtlasCommand) : (after commands).Keyed := by
  have hrun : ∀ t : ProcedureTable, t.Keyed → (commands.foldl ProcedureTable.obey t).Keyed := by
    induction commands with
    | nil => exact fun t h => h
    | cons command rest ih => exact fun t h => ih _ (h.obey command)
  exact hrun {} fun _ _ _ hat => by rw [PatternIndex.get?_empty] at hat; cases hat

/-- Where no id is drawn twice, no two entries have the same id. -/
theorem alone_after {commands : List AtlasCommand}
    (hids : (commands.filterMap AtlasCommand.drawn).Nodup) : RouterStateStore.Alone (after commands) := by
  -- `used` holds the ids drawn so far
  have hrun : ∀ (commands : List AtlasCommand) (t : ProcedureTable) (used : List Nat), RouterStateStore.Alone t →
      (∀ r e, t.heap.get? r = some e → e.registrationId ∈ used) →
      (used ++ commands.filterMap AtlasCommand.drawn).Nodup →
      RouterStateStore.Alone (commands.foldl ProcedureTable.obey t) := by
    intro commands
    induction commands with
    | nil => exact fun _ _ h _ _ => h
    | cons command rest ih =>
        intro t used halone hused hnodup
        have hsplit : used ++ (command :: rest).filterMap AtlasCommand.drawn =
            (used ++ command.drawn.toList) ++ rest.filterMap AtlasCommand.drawn := by
          cases hd : command.drawn with
          | none => simp [hd]
          | some id => simp [hd]
        rw [hsplit] at hnodup
        have hfresh : ∀ r e, t.heap.get? r = some e → command.drawn ≠ some e.registrationId := by
          intro r e he hdrawn
          have hleft := (List.nodup_append.mp hnodup).1
          rw [hdrawn] at hleft
          exact (List.nodup_append.mp hleft).2.2 _ (hused r e he) _ (List.mem_singleton_self _) rfl
        refine ih _ _ ?_ ?_ hnodup
        · intro r r' e e' he he' hid
          rcases heap_obey he with ⟨e₀, he₀, -, -, hk⟩ | ⟨hnew, hdrawn⟩
          · rcases heap_obey he' with ⟨e₀', he₀', -, -, hk'⟩ | ⟨hnew', hdrawn'⟩
            · exact halone r r' e₀ e₀' he₀ he₀' (hk.symm.trans (hid.trans hk'))
            · exact absurd (by rw [hdrawn', ← hid, hk]) (hfresh r e₀ he₀)
          · rcases heap_obey he' with ⟨e₀', he₀', -, -, hk'⟩ | ⟨hnew', hdrawn'⟩
            · exact absurd (by rw [hdrawn, hid, hk']) (hfresh r' e₀' he₀')
            · rw [hnew, hnew']
        · intro r e he
          rw [List.mem_append]
          rcases heap_obey he with ⟨e₀, he₀, -, -, hk⟩ | ⟨-, hdrawn⟩
          · rw [hk]
            exact .inl (hused r e₀ he₀)
          · exact .inr (by rw [hdrawn]; exact List.mem_singleton_self _)
  refine hrun commands {} [] (fun r _ e _ he => ?_) (fun r e he => ?_) hids
  · cases he
  · cases he

/-! ### What a procedure is matched to -/

/-- What a procedure has to be matched to: nothing, if nothing matches; else one of the entries that
match, an exact one if there is one, else the prefix that is longer than any other, else a wildcard
that no other one comes before. -/
def Selects (t : ProcedureTable) (u : String) : Option ProcedureEntry → Prop
  | none => ∀ r e, t.Live r e → e.matchesProcedure u = false
  | some best => (∃ r, t.Live r best) ∧ best.matchesProcedure u = true ∧
      ∀ r e, t.Live r e → e.matchesProcedure u = true → e ≠ best →
        match best.matchPolicy with
        | .exact => e.matchPolicy ≠ .exact
        | .prefixed => e.matchPolicy ≠ .exact ∧
            (e.matchPolicy = .prefixed → e.prefixLength < best.prefixLength)
        | .wildcard => e.matchPolicy = .wildcard ∧ ¬ e.Better best

theorem Keyed.live (h : t.Keyed) {p : ProcedureMatchPolicy} {procedure : String} {r : Ref}
    {e : ProcedureEntry} (hat : t.procedureAtlas.patterns.get? p procedure = some r)
    (he : t.heap.get? r = some e) : t.Live r e ∧ e.matchPolicy = p ∧ e.procedure = procedure := by
  obtain ⟨e', he', rfl, rfl⟩ := h p procedure r hat
  obtain rfl := Option.some.inj (he'.symm.trans he)
  exact ⟨⟨he, hat⟩, rfl, rfl⟩

/-- The entries of one table that match. -/
theorem Keyed.mem_matchingIn (h : t.Keyed) {p : ProcedureMatchPolicy} {u : String} {r : Ref}
    {e : ProcedureEntry} :
    (r, e) ∈ matchingIn t.heap u (t.procedureAtlas.patterns.table p) ↔
      t.Live r e ∧ e.matchPolicy = p ∧ e.matchesProcedure u = true := by
  rw [matchingIn, List.mem_filter, List.mem_filterMap]
  constructor
  · rintro ⟨⟨r', hr', hget⟩, hmatch⟩
    obtain ⟨e', he', heq⟩ := Option.map_eq_some_iff.mp hget
    obtain ⟨rfl, rfl⟩ := Prod.mk.inj heq
    obtain ⟨procedure, hat⟩ := LinkedMap.mem_values.mp hr'
    obtain ⟨hl, hp, -⟩ := h.live hat he'
    exact ⟨hl, hp, hmatch⟩
  · rintro ⟨hl, rfl, hmatch⟩
    refine ⟨⟨r, LinkedMap.mem_values.mpr ⟨e.procedure, hl.2⟩, ?_⟩, hmatch⟩
    rw [hl.1]
    rfl

/-- The best of one table: it matches, and nothing that matches beats it. -/
theorem Keyed.bestOf (h : t.Keyed) {better : ProcedureEntry → ProcedureEntry → Bool}
    (hirrefl : ∀ x, better x x = false)
    (htrans : ∀ x y z, better x y = true → better y z = true → better x z = true)
    {p : ProcedureMatchPolicy} {u : String} {r : Ref} {best : ProcedureEntry}
    (hbest : ProcedureAtlas.bestOf better t.heap u (t.procedureAtlas.patterns.table p) =
      some (r, best)) :
    t.Live r best ∧ best.matchPolicy = p ∧ best.matchesProcedure u = true ∧
      ∀ r' e, t.Live r' e → e.matchPolicy = p → e.matchesProcedure u = true →
        better e best = false := by
  rw [bestOf_eq] at hbest
  cases hm : matchingIn t.heap u (t.procedureAtlas.patterns.table p) with
  | nil =>
      rw [hm] at hbest
      cases hbest
  | cons first rest =>
      rw [hm] at hbest
      have hlast := Option.some.inj hbest
      have hmem := @foldl_keepBest_mem better rest first
      rw [hlast, ← hm] at hmem
      obtain ⟨hl, hp, hmatch⟩ := h.mem_matchingIn.mp hmem
      refine ⟨hl, hp, hmatch, fun r' e hl' hp' hmatch' => ?_⟩
      have hin := h.mem_matchingIn.mpr ⟨hl', hp', hmatch'⟩
      rw [hm] at hin
      have hbeaten := foldl_keepBest_unbeaten hirrefl htrans _ hin
      rw [hlast] at hbeaten
      exact hbeaten

theorem Keyed.bestOf_none (h : t.Keyed) {better : ProcedureEntry → ProcedureEntry → Bool}
    {p : ProcedureMatchPolicy} {u : String}
    (hbest : ProcedureAtlas.bestOf better t.heap u (t.procedureAtlas.patterns.table p) = none) :
    ∀ r e, t.Live r e → e.matchPolicy = p → e.matchesProcedure u = false := by
  rw [bestOf_eq] at hbest
  cases hm : matchingIn t.heap u (t.procedureAtlas.patterns.table p) with
  | cons first rest =>
      rw [hm] at hbest
      cases hbest
  | nil =>
      intro r e hl hp
      rw [Bool.eq_false_iff]
      intro hmatch
      have hin := h.mem_matchingIn.mpr ⟨hl, hp, hmatch⟩
      rw [hm] at hin
      cases hin

/-- An exact entry is matched by the procedure that it is found under. -/
theorem exact_matches {e : ProcedureEntry} {u : String} (hp : e.matchPolicy = .exact) :
    e.matchesProcedure u = true ↔ e.procedure = u := by
  rw [ProcedureEntry.matchesProcedure, hp]
  exact beq_iff_eq

/-- Of the prefixes of one text two are of the same length only if they are the same. -/
theorem prefix_length_inj {u p q : List Char} (hp : p <+: u) (hq : q <+: u)
    (hlen : (p.map fun c => if c.toNat < 0x10000 then 1 else 2).sum =
      (q.map fun c => if c.toNat < 0x10000 then 1 else 2).sum) : p = q := by
  induction u generalizing p q with
  | nil => rw [List.prefix_nil.mp hp, List.prefix_nil.mp hq]
  | cons a u ih =>
      have hpos : ∀ c : Char, 0 < if c.toNat < 0x10000 then 1 else 2 := by
        intro c
        split <;> decide
      rcases List.prefix_cons_iff.mp hp with rfl | ⟨p', rfl, hp'⟩
      · rcases List.prefix_cons_iff.mp hq with rfl | ⟨q', rfl, hq'⟩
        · rfl
        · have := hpos a
          rw [List.map_nil, List.sum_nil, List.map_cons, List.sum_cons] at hlen
          omega
      · rcases List.prefix_cons_iff.mp hq with rfl | ⟨q', rfl, hq'⟩
        · have := hpos a
          rw [List.map_nil, List.sum_nil, List.map_cons, List.sum_cons] at hlen
          omega
        · rw [List.map_cons, List.sum_cons, List.map_cons, List.sum_cons] at hlen
          rw [ih hp' hq' (Nat.add_left_cancel hlen)]

theorem prefix_of_matches {e : ProcedureEntry} {u : String} (hp : e.matchPolicy = .prefixed)
    (hmatch : e.matchesProcedure u = true) : e.procedure.toList <+: u.toList := by
  rw [ProcedureEntry.matchesProcedure, hp] at hmatch
  exact List.isPrefixOf_iff_prefix.mp (Bool.and_eq_true_iff.mp hmatch).1

/-- Of the prefixes that match, two of the same length are one entry. -/
theorem Live.prefix_unique {u : String} {r r' : Ref} {e e' : ProcedureEntry} (hl : t.Live r e)
    (hl' : t.Live r' e') (hp : e.matchPolicy = .prefixed) (hp' : e'.matchPolicy = .prefixed)
    (hmatch : e.matchesProcedure u = true) (hmatch' : e'.matchesProcedure u = true)
    (hlen : e.prefixLength = e'.prefixLength) : e = e' := by
  rw [ProcedureEntry.prefixLength, if_pos hp, ProcedureEntry.prefixLength, if_pos hp'] at hlen
  have hsame : e.procedure = e'.procedure :=
    String.toList_inj.mp (prefix_length_inj (prefix_of_matches hp hmatch)
      (prefix_of_matches hp' hmatch') hlen)
  have hat := hl.2
  rw [hp, hsame, ← hp', hl'.2] at hat
  obtain rfl := Option.some.inj hat
  exact Option.some.inj (hl.1.symm.trans hl'.1)

theorem betterPrefix_iff {a b : ProcedureEntry} :
    ProcedureAtlas.betterPrefix a b = true ↔ b.prefixLength < a.prefixLength ∨
      (a.prefixLength = b.prefixLength ∧ a.registrationId < b.registrationId) := by
  simp [ProcedureAtlas.betterPrefix]

/-- **The match is the one that has to be selected.** -/
theorem Keyed.selects (h : t.Keyed) (u : String) :
    t.Selects u ((t.procedureAtlas.lookup t.heap u).map (·.2)) := by
  have hexact : ∀ r e, t.Live r e → e.matchPolicy = .exact → e.matchesProcedure u = true →
      t.procedureAtlas.patterns.exact.get? u = some r := by
    intro r e hl hp hmatch
    have hat := hl.2
    rw [hp, (exact_matches hp).mp hmatch] at hat
    exact hat
  cases hu : t.procedureAtlas.patterns.exact.get? u with
  | some r =>
      obtain ⟨e, he, hp, hq⟩ := h .exact u r hu
      have hfound : t.procedureAtlas.lookup t.heap u = some (r, e) := by
        simp only [ProcedureAtlas.lookup, hu, Option.bind_some, he, Option.map_some]
      rw [hfound, Option.map_some]
      refine ⟨⟨r, (h.live (p := .exact) hu he).1⟩, (exact_matches hp).mpr hq, ?_⟩
      intro r' e' hl' hmatch' hne
      rw [hp]
      intro hp'
      have hsame := hexact r' e' hl' hp' hmatch'
      rw [hu] at hsame
      obtain rfl := Option.some.inj hsame
      exact hne (Option.some.inj (hl'.1.symm.trans he))
  | none =>
      have hnone : ∀ r e, t.Live r e → e.matchesProcedure u = true → e.matchPolicy ≠ .exact := by
        intro r e hl hmatch hp
        rw [hexact r e hl hp hmatch] at hu
        cases hu
      simp only [ProcedureAtlas.lookup, hu, Option.bind_none]
      cases hprefix : ProcedureAtlas.bestOf ProcedureAtlas.betterPrefix t.heap u
          t.procedureAtlas.patterns.prefixes with
      | some found =>
          obtain ⟨r, best⟩ := found
          obtain ⟨hl, hp, hmatch, hbest⟩ := h.bestOf (p := .prefixed)
            (fun x => by rw [Bool.eq_false_iff, ne_eq, betterPrefix_iff]; omega)
            (fun x y z => by simp only [betterPrefix_iff]; omega) hprefix
          refine ⟨⟨r, hl⟩, hmatch, fun r' e hl' hmatch' hne => ?_⟩
          rw [hp]
          refine ⟨hnone r' e hl' hmatch', fun hp' => ?_⟩
          have hbeaten := hbest r' e hl' hp' hmatch'
          rw [Bool.eq_false_iff, ne_eq, betterPrefix_iff, not_or] at hbeaten
          refine Nat.lt_of_le_of_ne (Nat.le_of_not_lt hbeaten.1) fun hlen => ?_
          exact hne (hl'.prefix_unique hl hp' hp hmatch' hmatch hlen)
      | none =>
          have hshort := h.bestOf_none (p := .prefixed) hprefix
          have hwild : ∀ r e, t.Live r e → e.matchesProcedure u = true →
              e.matchPolicy = .wildcard := by
            intro r e hl hmatch
            cases hp : e.matchPolicy with
            | exact => exact absurd hp (hnone r e hl hmatch)
            | prefixed =>
                rw [hshort r e hl hp] at hmatch
                cases hmatch
            | wildcard => rfl
          cases hw : ProcedureAtlas.bestOf
              (fun entry best => entry.compareWildcard best == .lt) t.heap u
              t.procedureAtlas.patterns.wildcards with
          | some found =>
              obtain ⟨r, best⟩ := found
              obtain ⟨hl, hp, hmatch, hbest⟩ := h.bestOf (p := .wildcard)
                (fun x => by rw [beq_eq_false_iff_ne]; exact ProcedureEntry.Better.irrefl x)
                (fun x y z => by
                  rw [beq_iff_eq, beq_iff_eq, beq_iff_eq]
                  exact ProcedureEntry.Better.trans) hw
              refine ⟨⟨r, hl⟩, hmatch, fun r' e hl' hmatch' hne => ?_⟩
              rw [hp]
              have hp' := hwild r' e hl' hmatch'
              exact ⟨hp', beq_eq_false_iff_ne.mp (hbest r' e hl' hp' hmatch')⟩
          | none =>
              have hfew := h.bestOf_none (p := .wildcard) hw
              intro r e hl
              rw [Bool.eq_false_iff]
              intro hmatch
              rw [hfew r e hl (hwild r e hl hmatch)] at hmatch
              cases hmatch

/-! ### The order of insertion -/

theorem SameKey.matches {e e' : ProcedureEntry} (h : SameKey e e') (u : String) :
    e'.matchesProcedure u = e.matchesProcedure u := by
  rw [ProcedureEntry.matchesProcedure, ProcedureEntry.matchesProcedure, h.1, h.2.1]

theorem SameKey.prefixLength {e e' : ProcedureEntry} (h : SameKey e e') :
    e'.prefixLength = e.prefixLength := by
  rw [ProcedureEntry.prefixLength, ProcedureEntry.prefixLength, h.1, h.2.1]

theorem SameKey.better {a a' b b' : ProcedureEntry} (ha : SameKey a a') (hb : SameKey b b') :
    a'.Better b' ↔ a.Better b := by
  have hblocks : ∀ {e e' : ProcedureEntry}, SameKey e e' →
      e'.wildcardLiteralBlocks = e.wildcardLiteralBlocks ∧
        e'.wildcardSegmentCount = e.wildcardSegmentCount := by
    intro e e' h
    unfold ProcedureEntry.wildcardLiteralBlocks ProcedureEntry.wildcardSegmentCount
    rw [h.1, h.2.1]
    exact ⟨rfl, rfl⟩
  rw [ProcedureEntry.better_iff, ProcedureEntry.better_iff, (hblocks ha).1, (hblocks ha).2,
    (hblocks hb).1, (hblocks hb).2, ha.2.2, hb.2.2]

/-- Every entry of `t` is in `t'`, under the same policy and procedure and with the same id. -/
def Within (t t' : ProcedureTable) : Prop :=
  ∀ r e, t.Live r e → ∃ r' e', t'.Live r' e' ∧ SameKey e e'

/-- The tables have the same entries, whatever the order in which they were inserted. -/
def SameEntries (t t' : ProcedureTable) : Prop := Within t t' ∧ Within t' t

/-- Two entries of one table with the same key are one. -/
theorem Live.eq_of_sameKey {r r' : Ref} {e e' : ProcedureEntry} (hl : t.Live r e)
    (hl' : t.Live r' e') (h : SameKey e e') : e' = e := by
  have hat := hl'.2
  rw [h.1, h.2.1, hl.2] at hat
  obtain rfl := Option.some.inj hat
  exact Option.some.inj (hl'.1.symm.trans hl.1)

/-- Of two entries with different ids one comes before the other. -/
theorem better_total (h : RouterStateStore.Alone t) {r r' : Ref} {a b : ProcedureEntry}
    (ha : t.Live r a) (hb : t.Live r' b) (hne : a ≠ b) : a.Better b ∨ b.Better a := by
  refine ProcedureEntry.Better.total fun hid => hne ?_
  obtain rfl := h r r' a b ha.1 hb.1 hid
  exact Option.some.inj (ha.1.symm.trans hb.1)

/-- There is one entry at most that can be selected, and it is the same for the same entries. -/
theorem Selects.unique {t' : ProcedureTable} (h : RouterStateStore.Alone t)
    (hsame : SameEntries t t') {u : String} {best best' : Option ProcedureEntry}
    (hs : t.Selects u best) (hs' : t'.Selects u best') :
    best.map keyOf = best'.map keyOf := by
  obtain ⟨hin, hin'⟩ := hsame
  cases best with
  | none =>
      cases best' with
      | none => rfl
      | some b' =>
          obtain ⟨⟨r', hl'⟩, hmatch', -⟩ := hs'
          obtain ⟨r, e, hl, hkey⟩ := hin' r' b' hl'
          rw [← hkey.matches u, hs r e hl] at hmatch'
          cases hmatch'
  | some b =>
      obtain ⟨⟨r, hl⟩, hmatch, hbest⟩ := hs
      obtain ⟨r₂, b₂, hl₂, hkey₂⟩ := hin r b hl
      cases best' with
      | none =>
          rw [← hkey₂.matches u, hs' r₂ b₂ hl₂] at hmatch
          cases hmatch
      | some b' =>
          obtain ⟨⟨r', hl'⟩, hmatch', hbest'⟩ := hs'
          obtain ⟨r₁, b₁, hl₁, hkey₁⟩ := hin' r' b' hl'
          -- `b₁` is the other table's choice in this table, `b₂` this table's choice in the other
          by_cases heq : b₁ = b
          · subst heq
            rw [Option.map_some, Option.map_some, keyOf, keyOf, hkey₁.1, hkey₁.2.1, hkey₁.2.2]
          · exfalso
            have heq₂ : b₂ ≠ b' := by
              rintro rfl
              exact heq (hl.eq_of_sameKey hl₁
                ⟨hkey₁.1.trans hkey₂.1, hkey₁.2.1.trans hkey₂.2.1, hkey₁.2.2.trans hkey₂.2.2⟩)
            have hloses := hbest r₁ b₁ hl₁ ((hkey₁.matches u).trans hmatch') heq
            have hloses' := hbest' r₂ b₂ hl₂ ((hkey₂.matches u).trans hmatch) heq₂
            rw [hkey₁.1] at hloses
            rw [hkey₂.1] at hloses'
            cases hp : b.matchPolicy with
            | exact =>
                rw [hp] at hloses hloses'
                cases hp' : b'.matchPolicy with
                | exact => exact hloses hp'
                | prefixed =>
                    rw [hp'] at hloses'
                    exact hloses'.1 rfl
                | wildcard =>
                    rw [hp'] at hloses'
                    cases hloses'.1
            | prefixed =>
                rw [hp] at hloses hloses'
                cases hp' : b'.matchPolicy with
                | exact => exact hloses.1 hp'
                | prefixed =>
                    rw [hp'] at hloses'
                    have hlt := hloses.2 hp'
                    have hlt' := hloses'.2 rfl
                    rw [hkey₁.prefixLength] at hlt
                    rw [hkey₂.prefixLength] at hlt'
                    exact Nat.lt_asymm hlt hlt'
                | wildcard =>
                    rw [hp'] at hloses'
                    cases hloses'.1
            | wildcard =>
                rw [hp] at hloses
                rw [hloses.1] at hloses'
                rcases better_total h hl hl₁ (Ne.symm heq) with hmore | hmore
                · exact hloses'.2 ((SameKey.better hkey₂ ⟨rfl, rfl, rfl⟩).mpr
                    ((SameKey.better (b := b') ⟨rfl, rfl, rfl⟩ hkey₁).mp hmore))
                · exact hloses.2 hmore

/-- **Best match.**  After any registrations and removals a procedure is matched to the exact entry,
else the longest prefix, else a wildcard that no other matching one comes before, else to nothing.
The order of wildcards is a strict order.  Where no id is drawn twice it is total on the entries that
are there, and any other sequence that leaves the same entries gives the same match. -/
theorem best_match (commands : List AtlasCommand) :
    (∀ u, (after commands).Selects u
      (((after commands).procedureAtlas.lookup (after commands).heap u).map (·.2))) ∧
    (∀ a : ProcedureEntry, ¬ a.Better a) ∧
    (∀ a b d : ProcedureEntry, a.Better b → b.Better d → a.Better d) ∧
    ((commands.filterMap AtlasCommand.drawn).Nodup →
      (∀ r r' a b, (after commands).Live r a → (after commands).Live r' b → a ≠ b →
        a.Better b ∨ b.Better a) ∧
      ∀ commands' : List AtlasCommand, SameEntries (after commands) (after commands') → ∀ u,
        ((after commands).procedureAtlas.lookup (after commands).heap u).map (keyOf ·.2) =
          ((after commands').procedureAtlas.lookup (after commands').heap u).map (keyOf ·.2)) := by
  refine ⟨(keyed_after commands).selects, ProcedureEntry.Better.irrefl,
    fun a b d => ProcedureEntry.Better.trans, fun hids => ?_⟩
  have halone := alone_after hids
  refine ⟨fun r r' a b ha hb hne => better_total halone ha hb hne, fun commands' hsame u => ?_⟩
  have hunique := Selects.unique halone hsame ((keyed_after commands).selects u)
    ((keyed_after commands').selects u)
  rw [Option.map_map, Option.map_map] at hunique
  exact hunique

/-- Registration `id` of a wildcard that several callees may share. -/
def shared (procedure : String) (id : Nat) : AtlasCommand :=
  .register procedure .roundRobin .wildcard none
    { registrationId := id, procedure := procedure, sessionId := 1, authRole := none,
      details := .empty, matchPolicy := .wildcard } 0

/-- The pattern that a procedure is matched to. -/
def matched (t : ProcedureTable) (u : String) : Option String :=
  (t.procedureAtlas.lookup t.heap u).map (·.2.procedure)

theorem compareBlocks_self (a : List Nat) : ProcedureEntry.compareBlocks a a = .eq := by
  induction a with
  | nil => exact ProcedureEntry.compareBlocks_nil
  | cons n a ih =>
      rw [ProcedureEntry.compareBlocks_step]
      simpa using ih

/-- Of two wildcards of the same blocks and segments the one with the smaller id is taken. -/
theorem matched_tie {t : ProcedureTable} {u p q : String} {i j : Nat}
    (hexact : t.procedureAtlas.patterns.exact.get? u = none)
    (hprefixes : (matchingIn t.heap u t.procedureAtlas.patterns.prefixes).map (keyOf ·.2) = [])
    (hwildcards : (matchingIn t.heap u t.procedureAtlas.patterns.wildcards).map (keyOf ·.2) =
      [(.wildcard, p, i), (.wildcard, q, j)])
    (hblocks : ProcedureEntry.literalBlocks (splitDots q) =
      ProcedureEntry.literalBlocks (splitDots p))
    (hsegments : (splitDots q).length = (splitDots p).length) :
    t.matched u = some (if j < i then q else p) := by
  obtain ⟨x, rest, hm, hx, hrest⟩ := List.map_eq_cons_iff.mp hwildcards
  obtain ⟨y, rest, rfl, hy, hnil⟩ := List.map_eq_cons_iff.mp hrest
  obtain rfl := List.map_eq_nil_iff.mp hnil
  obtain ⟨hxp, hxq, hxi⟩ : x.2.matchPolicy = .wildcard ∧ x.2.procedure = p ∧
      x.2.registrationId = i := by simpa [keyOf] using hx
  obtain ⟨hyp, hyq, hyi⟩ : y.2.matchPolicy = .wildcard ∧ y.2.procedure = q ∧
      y.2.registrationId = j := by simpa [keyOf] using hy
  have hbetter : y.2.Better x.2 ↔ j < i := by
    rw [ProcedureEntry.better_iff]
    simp only [ProcedureEntry.wildcardLiteralBlocks, ProcedureEntry.wildcardSegmentCount, hxp, hyp,
      hxq, hyq, hxi, hyi, if_true, hblocks, hsegments, compareBlocks_self]
    simp
  rw [matched, ProcedureAtlas.lookup, hexact, Option.bind_none, bestOf_eq,
    List.map_eq_nil_iff.mp hprefixes, bestOf_eq, hm]
  simp only [List.foldl_cons, List.foldl_nil, Option.map_some, keepBest]
  by_cases hlt : j < i
  · rw [if_pos hlt, if_pos (beq_iff_eq.mpr (hbetter.mpr hlt)), hyq]
  · rw [if_neg hlt, if_neg fun h => hlt (hbetter.mp (beq_iff_eq.mp h)), hxq]

/-- Two wildcards of the same blocks and segments: the one that was registered first wins.  So it
is when the ids are drawn in sequence, and also when the same registrations come with the ids that
they have. -/
theorem order_matters :
    (matched (after [shared "a.." 1, shared ".b." 2]) "a.b.c" = some "a.." ∧
      matched (after [shared ".b." 1, shared "a.." 2]) "a.b.c" = some ".b.") ∧
    (matched (after [shared "a.." 5, shared "a.." 7, shared ".b." 6]) "a.b.c" = some "a.." ∧
      matched (after [shared "a.." 7, shared "a.." 5, shared ".b." 6]) "a.b.c" = some ".b.") := by
  refine ⟨⟨?_, ?_⟩, ?_, ?_⟩
  · exact matched_tie (p := "a..") (q := ".b.") (i := 1) (j := 2) (by decide +kernel)
      (by decide +kernel) (by decide +kernel) (by decide +kernel) (by decide +kernel)
  · exact matched_tie (p := ".b.") (q := "a..") (i := 1) (j := 2) (by decide +kernel)
      (by decide +kernel) (by decide +kernel) (by decide +kernel) (by decide +kernel)
  · exact matched_tie (p := "a..") (q := ".b.") (i := 5) (j := 6) (by decide +kernel)
      (by decide +kernel) (by decide +kernel) (by decide +kernel) (by decide +kernel)
  · exact matched_tie (p := "a..") (q := ".b.") (i := 7) (j := 6) (by decide +kernel)
      (by decide +kernel) (by decide +kernel) (by decide +kernel) (by decide +kernel)

end ProcedureTable

end Connectanum
