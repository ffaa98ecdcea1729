import Connectanum.Lib.Rotations
import Connectanum.Lib.Runs
import Connectanum.State.Procedure

/-!
# State — Round robin

The callees of a shared registration under the round-robin policy, over any sequence of
`addCallee`, `removeCallee` and `nextCallee`.

The cursor counts the callees that have had their turn in this round.  `removeCallee` takes it modulo
the number of callees that are left, but does not take it back when the callee that goes is one of
those it counts; nor does `addCallee` move it on.  `InTurn` is the condition that this does not
happen: then the callees wait as in a queue (`queue`), which `Rotations` is about.
-/

namespace Connectanum

open Collections Machine Rotations

/-- The calls on a procedure entry. -/
inductive CalleeOp where
  | addCallee (record : RegistrationRecord)
  | removeCallee (registrationId : Nat)
  | nextCallee (draw : Nat)

namespace ProcedureEntry

/-- The factory `ProcedureEntry(..)`, at the time `created`. -/
def create (registrationId : Nat) (procedure : String) (matchPolicy : ProcedureMatchPolicy)
    (policy : InvocationPolicy) (callees : List RegistrationRecord) (created : Nat) :
    ProcedureEntry where
  registrationId := registrationId
  procedure := procedure
  matchPolicy := matchPolicy
  policy := policy
  callees := callees.foldl (fun m record => m.insert record.registrationId record) .empty
  created := created

def step (e : ProcedureEntry) : CalleeOp → ProcedureEntry
  | .addCallee record => e.addCallee record
  | .removeCallee registrationId => e.removeCallee registrationId
  | .nextCallee draw => (e.nextCallee draw).2

/-- The registration whose callee the call selects. -/
def selected (e : ProcedureEntry) : CalleeOp → Option Nat
  | .nextCallee draw => (e.nextCallee draw).1.map (·.registrationId)
  | _ => none

/-- How often the callee is selected. -/
def selections (id : Nat) : ProcedureEntry → List CalleeOp → Nat
  | _, [] => 0
  | e, op :: ops => (if e.selected op = some id then 1 else 0) + selections id (e.step op) ops

/-- The callee is registered throughout. -/
def Stays (id : Nat) : ProcedureEntry → List CalleeOp → Prop
  | e, [] => (e.callees.get? id).isSome
  | e, op :: ops => (e.callees.get? id).isSome ∧ Stays id (e.step op) ops

instance decidableStays (id : Nat) : ∀ e ops, Decidable (Stays id e ops)
  | _, [] => inferInstanceAs (Decidable (_ = true))
  | e, op :: ops =>
      have := decidableStays id (e.step op) ops
      inferInstanceAs (Decidable (_ ∧ _))

/-- The callee that is selected at `e` is registered.  When the same callee, having stayed, is
selected again at `e'`, for the first time since, every other callee that stayed has been selected
exactly once. -/
structure Fair (e : ProcedureEntry) (draw : Nat) (between : List CalleeOp) (e' : ProcedureEntry)
    (draw' : Nat) : Prop where
  registered : ∀ record, (e.nextCallee draw).1 = some record →
    e.callees.get? record.registrationId = some record
  once : ∀ id other, e.selected (.nextCallee draw) = some id →
    selections id (e.step (.nextCallee draw)) between = 0 →
    e'.selected (.nextCallee draw') = some id →
    Stays id (e.step (.nextCallee draw)) between →
    Stays other (e.step (.nextCallee draw)) between → other ≠ id →
    selections other (e.step (.nextCallee draw)) between = 1

/-- The callees that the cursor counts. -/
def passed (e : ProcedureEntry) : List Nat := e.callees.keys.take e.cursor

/-- No callee comes or goes among those that the cursor counts; when a single callee is left, the
cursor is right in any case. -/
def InTurn (e : ProcedureEntry) : CalleeOp → Prop
  | .addCallee record =>
      (e.callees.get? record.registrationId).isSome ∨
        ∀ id ∈ e.passed, id < record.registrationId
  | .removeCallee registrationId => registrationId ∉ e.passed ∨ e.callees.length ≤ 2
  | .nextCallee _ => True

instance (e : ProcedureEntry) (op : CalleeOp) : Decidable (e.InTurn op) :=
  match op with
  | .addCallee _ => inferInstanceAs (Decidable (_ ∨ _))
  | .removeCallee _ => inferInstanceAs (Decidable (_ ∨ _))
  | .nextCallee _ => inferInstanceAs (Decidable True)

/-! ### The queue -/

/-- The callees, the next one first. -/
def queue (e : ProcedureEntry) : List Nat :=
  e.callees.keys.drop e.cursor ++ e.callees.keys.take e.cursor

/-- A round-robin entry between two calls. -/
structure Ordered (e : ProcedureEntry) : Prop where
  policy : e.policy = .roundRobin
  cursor : e.cursor = 0 ∨ e.cursor < e.callees.length
  key : ∀ id record, e.callees.get? id = some record → record.registrationId = id
  cache : ∀ cached, e.cachedCallees = some cached → e.cachedVersion = some e.cacheVersion →
    cached = e.callees.values
  cacheVersion : ∀ version, e.cachedVersion = some version → version ≤ e.cacheVersion

variable {e : ProcedureEntry}

theorem length_keys (m : SplayMap Nat RegistrationRecord) : m.keys.length = m.length :=
  List.length_map _

theorem mem_keys {m : SplayMap Nat RegistrationRecord} {id : Nat} :
    id ∈ m.keys ↔ (m.get? id).isSome := by
  rw [Option.isSome_iff_exists]
  simp [SplayMap.keys, ← SplayMap.mem_entries]

theorem nodup_queue (e : ProcedureEntry) : e.queue.Nodup := by
  have hperm : e.queue.Perm e.callees.keys := by
    have h : (e.callees.keys.drop e.cursor ++ e.callees.keys.take e.cursor).Perm
        (e.callees.keys.take e.cursor ++ e.callees.keys.drop e.cursor) := List.perm_append_comm
    rwa [List.take_append_drop] at h
  exact hperm.nodup_iff.mpr e.callees.nodup

theorem mem_queue {id : Nat} : id ∈ e.queue ↔ (e.callees.get? id).isSome := by
  rw [← mem_keys, queue, List.mem_append, Or.comm, ← List.mem_append, List.take_append_drop]

/-- Through the cache or not, the callees are those of the map. -/
theorem Ordered.orderedCallees (h : e.Ordered) : e.orderedCallees.1 = e.callees.values := by
  unfold ProcedureEntry.orderedCallees
  split
  · next cached hcached =>
      split
      · next hversion => exact h.cache cached hcached hversion
      · rfl
  · rfl

theorem orderedCallees_frame (e : ProcedureEntry) :
    e.orderedCallees.2.callees = e.callees ∧ e.orderedCallees.2.cursor = e.cursor ∧
      e.orderedCallees.2.policy = e.policy ∧
      e.orderedCallees.2.cacheVersion = e.cacheVersion := by
  unfold ProcedureEntry.orderedCallees
  split
  · split <;> exact ⟨rfl, rfl, rfl, rfl⟩
  · exact ⟨rfl, rfl, rfl, rfl⟩

theorem orderedCallees_cache (h : e.Ordered) :
    (∀ cached, e.orderedCallees.2.cachedCallees = some cached →
      e.orderedCallees.2.cachedVersion = some e.cacheVersion → cached = e.callees.values) ∧
    ∀ version, e.orderedCallees.2.cachedVersion = some version → version ≤ e.cacheVersion := by
  unfold ProcedureEntry.orderedCallees
  split
  · split
    · exact ⟨h.cache, h.cacheVersion⟩
    · refine ⟨fun cached hcached _ => (Option.some.inj hcached).symm, ?_⟩
      rintro version hversion
      exact Nat.le_of_eq (Option.some.inj hversion).symm
  · refine ⟨fun cached hcached _ => (Option.some.inj hcached).symm, ?_⟩
    rintro version hversion
    exact Nat.le_of_eq (Option.some.inj hversion).symm

/-! ### One call -/

/-- What `nextCallee` does when there are callees. -/
theorem nextCallee_eq (h : e.Ordered) (hne : e.callees.isEmpty = false) (draw : Nat) :
    e.nextCallee draw = (e.callees.values[e.cursor % e.callees.length]?,
      { e.orderedCallees.2 with cursor := (e.cursor + 1) % e.callees.length }) := by
  have hvalues : e.callees.values.isEmpty = false := by
    rw [SplayMap.isEmpty, List.isEmpty_eq_false_iff] at hne
    rw [List.isEmpty_eq_false_iff]
    exact fun hnil => hne (List.map_eq_nil_iff.mp hnil)
  have hlength : e.callees.values.length = e.callees.length := List.length_map _
  rw [nextCallee, hne, h.policy]
  simp only [Bool.false_eq_true, if_false]
  rw [h.orderedCallees, hvalues, hlength, (orderedCallees_frame e).2.1]
  rfl

theorem nextCallee_of_isEmpty (hempty : e.callees.isEmpty = true) (draw : Nat) :
    e.nextCallee draw = (none, e) := by
  rw [nextCallee, if_pos hempty]

theorem Ordered.cursor_lt (h : e.Ordered) (hne : e.callees.isEmpty = false) :
    e.cursor < e.callees.length := by
  rcases h.cursor with hzero | hlt
  · rw [hzero]
    rw [SplayMap.isEmpty, List.isEmpty_eq_false_iff] at hne
    exact List.length_pos_iff.mpr hne
  · exact hlt

theorem Ordered.cursor_le (h : e.Ordered) : e.cursor ≤ e.callees.keys.length := by
  rw [length_keys]
  rcases h.cursor with hzero | hlt
  · rw [hzero]
    exact Nat.zero_le _
  · exact Nat.le_of_lt hlt

/-- The callee whose turn it is goes to the end of the queue. -/
theorem queue_nextCallee (h : e.Ordered) (hne : e.callees.isEmpty = false) (draw : Nat) :
    ∃ record rest, (e.nextCallee draw).1 = some record ∧
      e.callees.get? record.registrationId = some record ∧
      e.queue = record.registrationId :: rest ∧
      (e.nextCallee draw).2.queue = rest ++ [record.registrationId] := by
  have hlt := h.cursor_lt hne
  have hmod : e.cursor % e.callees.length = e.cursor := Nat.mod_eq_of_lt hlt
  have hentry : e.cursor < e.callees.entries.length := hlt
  have hkeys : e.cursor < e.callees.keys.length := by rw [length_keys]; exact hlt
  obtain ⟨⟨id, record⟩, hat⟩ : ∃ entry, e.callees.entries[e.cursor]? = some entry :=
    ⟨_, List.getElem?_eq_getElem hentry⟩
  have hget : e.callees.get? id = some record :=
    SplayMap.mem_entries.mp (List.mem_of_getElem? hat)
  have hid : record.registrationId = id := h.key id record hget
  have hkey : e.callees.keys[e.cursor]? = some id := by
    rw [SplayMap.keys, List.getElem?_map, hat]
    rfl
  have hvalue : e.callees.values[e.cursor]? = some record := by
    rw [SplayMap.values, List.getElem?_map, hat]
    rfl
  have hdrop : e.callees.keys.drop e.cursor = id :: e.callees.keys.drop (e.cursor + 1) := by
    rw [List.drop_eq_getElem_cons hkeys]
    congr 1
    exact Option.some.inj ((List.getElem?_eq_getElem hkeys).symm.trans hkey)
  have htake : e.callees.keys.take (e.cursor + 1) = e.callees.keys.take e.cursor ++ [id] := by
    rw [List.take_add_one, hkey]
    rfl
  refine ⟨record, e.callees.keys.drop (e.cursor + 1) ++ e.callees.keys.take e.cursor, ?_⟩
  rw [nextCallee_eq h hne, hmod, hid]
  refine ⟨hvalue, hget, by rw [queue, hdrop, List.cons_append], ?_⟩
  rw [queue, (orderedCallees_frame e).1]
  simp only
  rw [List.append_assoc, ← htake]
  by_cases hlast : e.cursor + 1 = e.callees.length
  · -- the round ends, and the cursor is `0` again
    have hall : e.callees.keys.length ≤ e.cursor + 1 := by rw [length_keys, hlast]
    rw [hlast, Nat.mod_self, List.drop_zero, List.take_zero, List.append_nil, ← hlast,
      List.drop_of_length_le hall, List.nil_append, List.take_of_length_le hall]
  · rw [Nat.mod_eq_of_lt (by omega)]

/-- Insertion behind the keys that are smaller. -/
theorem keys_sortedInsert {id n : Nat} {record : RegistrationRecord}
    {l : List (Nat × RegistrationRecord)} (hpassed : ∀ k ∈ (l.map Prod.fst).take n, k < id)
    (hnew : id ∉ l.map Prod.fst) :
    ∃ back, (sortedInsert id record l).map Prod.fst = (l.map Prod.fst).take n ++ back ∧
      ((l.map Prod.fst).drop n).Sublist back := by
  induction l generalizing n with
  | nil => exact ⟨[id], by simp [sortedInsert], by simp⟩
  | cons p rest ih =>
      rw [List.map_cons, List.mem_cons, not_or] at hnew
      obtain ⟨hp, hrest⟩ := hnew
      cases n with
      | zero =>
          refine ⟨_, rfl, ?_⟩
          obtain ⟨back, hback, hsub⟩ := @ih 0 (by simp) hrest
          rw [List.drop_zero] at hsub ⊢
          rw [List.take_zero, List.nil_append] at hback
          rw [sortedInsert, List.map_cons]
          split
          · exact List.sublist_cons_self id _
          · rw [if_neg (Ne.symm hp), List.map_cons, hback]
            exact hsub.cons_cons _
      | succ n =>
          rw [List.map_cons, List.take_succ_cons] at hpassed
          have hbelow : p.1 < id := hpassed p.1 (List.mem_cons_self ..)
          obtain ⟨back, hback, hsub⟩ := @ih n
            (fun k hk => hpassed k (List.mem_cons_of_mem _ hk)) hrest
          refine ⟨back, ?_, ?_⟩
          · rw [sortedInsert, if_neg (Nat.lt_asymm hbelow), if_neg (Nat.ne_of_lt hbelow),
              List.map_cons, List.map_cons, List.take_succ_cons, hback, List.cons_append]
          · rw [List.map_cons, List.drop_succ_cons]
            exact hsub

/-- Writing at a key that is there leaves the keys as they are. -/
theorem keys_sortedInsert_of_mem {id : Nat} {record : RegistrationRecord}
    {l : List (Nat × RegistrationRecord)} (hsorted : (l.map Prod.fst).Pairwise (· < ·))
    (hmem : id ∈ l.map Prod.fst) :
    (sortedInsert id record l).map Prod.fst = l.map Prod.fst := by
  induction l with
  | nil => cases hmem
  | cons p rest ih =>
      rw [List.map_cons, List.pairwise_cons] at hsorted
      rw [List.map_cons, List.mem_cons] at hmem
      rw [sortedInsert]
      by_cases hp : p.1 = id
      · rw [if_neg (by omega), if_pos hp, List.map_cons, List.map_cons, hp]
      · have hrest := hmem.resolve_left (Ne.symm hp)
        have hlt := hsorted.1 id hrest
        rw [if_neg (Nat.lt_asymm hlt), if_neg hp, List.map_cons, List.map_cons, ih hsorted.2 hrest]

theorem keys_assocErase (id : Nat) (l : List (Nat × RegistrationRecord)) :
    (assocErase id l).map Prod.fst = (l.map Prod.fst).filter (· ≠ id) := by
  rw [assocErase, List.filter_map]
  rfl

theorem length_insert_le (m : SplayMap Nat RegistrationRecord) (id : Nat)
    (record : RegistrationRecord) : m.length ≤ (m.insert id record).length := by
  by_cases hmem : id ∈ m.keys
  · have h := congrArg List.length (@keys_sortedInsert_of_mem id record m.entries m.sorted hmem)
    rw [List.length_map, List.length_map] at h
    exact Nat.le_of_eq h.symm
  · obtain ⟨back, hback, hsub⟩ := @keys_sortedInsert id 0 record m.entries (by simp) hmem
    have hlen := congrArg List.length hback
    rw [List.take_zero, List.nil_append, List.length_map] at hlen
    have hle := hsub.length_le
    rw [List.drop_zero, List.length_map] at hle
    exact Nat.le_trans hle (Nat.le_of_eq hlen.symm)

theorem Ordered.addCallee (h : e.Ordered) (record : RegistrationRecord) :
    (e.addCallee record).Ordered where
  policy := h.policy
  cursor := h.cursor.imp id fun hlt => Nat.lt_of_lt_of_le hlt (length_insert_le _ _ _)
  key id r hr := by
    rw [ProcedureEntry.addCallee, SplayMap.get?_insert] at hr
    split at hr
    · next hid => rw [← Option.some.inj hr, hid]
    · exact h.key id r hr
  cache _ _ hversion := absurd (h.cacheVersion _ hversion) (Nat.not_succ_le_self _)
  cacheVersion version hversion := Nat.le_succ_of_le (h.cacheVersion version hversion)

theorem Ordered.removeCallee (h : e.Ordered) (registrationId : Nat) :
    (e.removeCallee registrationId).Ordered := by
  unfold ProcedureEntry.removeCallee
  split
  · exact h
  · refine ⟨h.policy, ?_, ?_, ?_, ?_⟩
    · dsimp only
      split
      · exact .inl rfl
      · next hne =>
          have hpos : 0 < (e.callees.erase registrationId).length := by
            rw [SplayMap.isEmpty, List.isEmpty_iff] at hne
            exact List.length_pos_iff.mpr hne
          split
          · exact .inr (Nat.mod_lt _ hpos)
          · next hlt => exact .inr (Nat.lt_of_not_le hlt)
    · intro id r hr
      rw [SplayMap.get?_erase] at hr
      split at hr
      · cases hr
      · exact h.key id r hr
    · intro _ _ hversion
      exact absurd (h.cacheVersion _ hversion) (Nat.not_succ_le_self _)
    · intro version hversion
      exact Nat.le_succ_of_le (h.cacheVersion version hversion)

theorem callees_nextCallee (h : e.Ordered) (draw : Nat) :
    (e.nextCallee draw).2.callees = e.callees := by
  cases hne : e.callees.isEmpty with
  | true => rw [nextCallee_of_isEmpty hne]
  | false =>
      rw [nextCallee_eq h hne]
      exact (orderedCallees_frame e).1

theorem Ordered.nextCallee (h : e.Ordered) (draw : Nat) : (e.nextCallee draw).2.Ordered := by
  cases hne : e.callees.isEmpty with
  | true =>
      rw [nextCallee_of_isEmpty hne]
      exact h
  | false =>
      obtain ⟨hcallees, _, hpolicy, hversion⟩ := orderedCallees_frame e
      obtain ⟨hcache, hle⟩ := orderedCallees_cache h
      have hpos := Nat.zero_lt_of_lt (h.cursor_lt hne)
      rw [nextCallee_eq h hne]
      refine ⟨hpolicy.trans h.policy, .inr ?_, ?_, ?_, ?_⟩
      · rw [hcallees]
        exact Nat.mod_lt _ hpos
      · rw [hcallees]
        exact h.key
      · rw [hcallees, hversion]
        exact hcache
      · rw [hversion]
        exact hle

theorem Ordered.step (h : e.Ordered) (op : CalleeOp) : (e.step op).Ordered := by
  cases op with
  | addCallee record => exact h.addCallee record
  | removeCallee registrationId => exact h.removeCallee registrationId
  | nextCallee draw => exact h.nextCallee draw

theorem Ordered.create (registrationId : Nat) (procedure : String)
    (matchPolicy : ProcedureMatchPolicy) (callees : List RegistrationRecord) (created : Nat) :
    (create registrationId procedure matchPolicy .roundRobin callees created).Ordered where
  policy := rfl
  cursor := .inl rfl
  key := by
    have hfold : ∀ m : SplayMap Nat RegistrationRecord,
        (∀ id r, m.get? id = some r → r.registrationId = id) → ∀ id r,
        (callees.foldl (fun m record => m.insert record.registrationId record) m).get? id =
          some r → r.registrationId = id := by
      induction callees with
      | nil => exact fun m hm => hm
      | cons record rest ih =>
          intro m hm
          refine ih _ fun id r hr => ?_
          rw [SplayMap.get?_insert] at hr
          split at hr
          · next hid => rw [← Option.some.inj hr, hid]
          · exact hm id r hr
    exact hfold .empty fun id r hr => by cases hr
  cache _ hcached := by cases hcached
  cacheVersion _ hversion := by cases hversion

/-- A callee that comes in turn comes behind those who have waited. -/
theorem keeps_addCallee (h : e.Ordered) {record : RegistrationRecord}
    (hturn : e.InTurn (.addCallee record)) :
    Keeps e.queue (e.addCallee record).queue := by
  by_cases hmem : record.registrationId ∈ e.callees.keys
  · have hkeys : (e.addCallee record).callees.keys = e.callees.keys :=
      keys_sortedInsert_of_mem e.callees.sorted hmem
    refine keeps_of_comers ?_
    rw [queue, queue, hkeys]
    exact List.Sublist.refl _
  · have hpassed := hturn.resolve_left fun hsome => hmem (mem_keys.mpr hsome)
    obtain ⟨back, hback, hsub⟩ := @keys_sortedInsert _ e.cursor record e.callees.entries hpassed hmem
    have hkeys : (e.addCallee record).callees.keys = e.callees.keys.take e.cursor ++ back := hback
    have hlength : (e.callees.keys.take e.cursor).length = e.cursor := by
      rw [List.length_take, Nat.min_eq_left (h.cursor_le)]
    refine keeps_of_comers ?_
    rw [queue, queue, hkeys]
    change List.Sublist _ ((e.callees.keys.take e.cursor ++ back).drop e.cursor ++
      (e.callees.keys.take e.cursor ++ back).take e.cursor)
    rw [List.drop_left' hlength, List.take_left' hlength]
    exact hsub.append (List.Sublist.refl _)

/-- Nor does one that goes in turn, or leaves a single one, disturb the others. -/
theorem keeps_removeCallee (h : e.Ordered) {registrationId : Nat}
    (hturn : e.InTurn (.removeCallee registrationId)) :
    Keeps e.queue (e.removeCallee registrationId).queue := by
  have hkeys : (e.callees.erase registrationId).keys =
      e.callees.keys.filter (· ≠ registrationId) := keys_assocErase _ _
  unfold ProcedureEntry.removeCallee
  split
  · exact keeps_of_comers (List.Sublist.refl _)
  · next record hget =>
      rcases hturn with hturn | hfew
      · -- those ahead of the cursor stay where they are
        have hkept : (e.callees.erase registrationId).keys = e.callees.keys.take e.cursor ++
            (e.callees.keys.drop e.cursor).filter (· ≠ registrationId) := by
          have hfront : (e.callees.keys.take e.cursor).filter (· ≠ registrationId) =
              e.callees.keys.take e.cursor := by
            refine List.filter_eq_self.mpr fun k hk => decide_eq_true ?_
            rintro rfl
            exact hturn hk
          rw [hkeys]
          conv_lhs => rw [← List.take_append_drop e.cursor e.callees.keys]
          rw [List.filter_append, hfront]
        have hfront : (e.callees.keys.take e.cursor).length = e.cursor := by
          rw [List.length_take, Nat.min_eq_left h.cursor_le]
        have hback : ((e.callees.keys.drop e.cursor).filter (· ≠ registrationId)).Sublist
            (e.callees.keys.drop e.cursor) := List.filter_sublist
        have hlength := congrArg List.length hkept
        rw [length_keys, List.length_append, hfront] at hlength
        refine keeps_of_leavers (nodup_queue e) ?_
        rw [queue, queue]
        dsimp only
        split
        · next hempty =>
            have hnil : (e.callees.erase registrationId).keys = [] := by
              rw [SplayMap.keys, List.isEmpty_iff.mp hempty, List.map_nil]
            rw [hnil]
            exact List.nil_sublist _
        · rw [hkept]
          split
          · next hpast =>
              have hnil : (e.callees.keys.drop e.cursor).filter (· ≠ registrationId) = [] :=
                List.length_eq_zero_iff.mp (by omega)
              have hzero : e.cursor % (e.callees.erase registrationId).length = 0 := by
                rw [show (e.callees.erase registrationId).length = e.cursor by
                  rw [hlength, hnil]; rfl, Nat.mod_self]
              rw [hzero, hnil, List.append_nil, List.drop_zero, List.take_zero, List.append_nil]
              exact List.sublist_append_right _ _
          · rw [List.drop_left' hfront, List.take_left' hfront]
            exact hback.append (List.Sublist.refl _)
      · have hlength : (e.callees.erase registrationId).keys.length + 1 = e.callees.length := by
          rw [length_keys, SplayMap.length, SplayMap.length,
            (SplayMap.perm_erase hget).length_eq, List.length_cons]
        refine keeps_of_length_le_one (nodup_queue e) ?_
        rw [queue, List.length_append, List.length_drop, List.length_take]
        dsimp only
        omega

/-! ### A run -/

/-- One call between two turns of `id`. -/
theorem between_step {id other n : Nat} {op : CalleeOp} (h : e.Ordered) (hturn : e.InTurn op)
    (hid : e.selected op ≠ some id) (hb : Between id other e.queue n)
    (hstay : ((e.step op).callees.get? id).isSome)
    (hother : ((e.step op).callees.get? other).isSome) :
    Between id other (e.step op).queue
      (n + if e.selected op = some other then 1 else 0) := by
  cases op with
  | addCallee record =>
      exact hb.keep (keeps_addCallee h hturn) (mem_queue.mpr hstay) (mem_queue.mpr hother)
  | removeCallee registrationId =>
      exact hb.keep (keeps_removeCallee h hturn) (mem_queue.mpr hstay) (mem_queue.mpr hother)
  | nextCallee draw =>
      cases hempty : e.callees.isEmpty with
      | true =>
          rw [step, selected, nextCallee_of_isEmpty hempty]
          exact hb
      | false =>
          obtain ⟨record, rest, hrecord, _, hqueue, hqueue'⟩ := queue_nextCallee h hempty draw
          have hnodup := nodup_queue e
          rw [selected, hrecord, Option.map_some] at hid ⊢
          rw [step, hqueue']
          rw [hqueue] at hb hnodup
          by_cases hserved : record.registrationId = other
          · rw [if_pos (congrArg some hserved), hserved]
            rw [hserved] at hb hnodup
            exact hb.serve hnodup
          · rw [if_neg fun h => hserved (Option.some.inj h), Nat.add_zero]
            exact hb.pass (fun h => hid (congrArg some h)) hserved

theorem stays_head {id : Nat} {ops : List CalleeOp} (h : Stays id e ops) :
    (e.callees.get? id).isSome := by
  cases ops with
  | nil => exact h
  | cons op ops => exact h.1

theorem between_run {id other n : Nat} {ops : List CalleeOp} {e' : ProcedureEntry}
    (hrun : Run step InTurn e ops e') (h : e.Ordered) (hno : selections id e ops = 0)
    (hb : Between id other e.queue n) (hstay : Stays id e ops)
    (hother : Stays other e ops) :
    e'.Ordered ∧ Between id other e'.queue (n + selections other e ops) := by
  induction hrun generalizing n with
  | nil => exact ⟨h, hb⟩
  | @cons e e' op rest hturn _ ih =>
      rw [selections, Nat.add_eq_zero_iff] at hno
      have hid : e.selected op ≠ some id := fun hsome => by
        rw [if_pos hsome] at hno
        exact Nat.one_ne_zero hno.1
      have hnext := between_step h hturn hid hb (stays_head hstay.2) (stays_head hother.2)
      rw [selections, ← Nat.add_assoc]
      exact ih (h.step op) hno.2 hnext hstay.2 hother.2

/-- **Fairness.**  In a run in which no callee comes or goes among those the cursor counts, the
callees are selected in turn. -/
theorem roundRobin_fair {registrationId created draw draw' : Nat} {procedure : String}
    {matchPolicy : ProcedureMatchPolicy} {callees : List RegistrationRecord}
    {before between : List CalleeOp} {e e' : ProcedureEntry}
    (hbefore : Run step InTurn
      (create registrationId procedure matchPolicy .roundRobin callees created) before e)
    (hbetween : Run step InTurn (e.step (.nextCallee draw)) between e') :
    Fair e draw between e' draw' := by
  have h : e.Ordered := hbefore.invariant (fun _ op h _ => h.step op) (.create _ _ _ _ _)
  cases hempty : e.callees.isEmpty with
  | true =>
      rw [step, nextCallee_of_isEmpty hempty] at hbetween
      refine ⟨fun record hrecord => ?_, fun id other hid => ?_⟩
      · rw [nextCallee_of_isEmpty hempty] at hrecord
        cases hrecord
      · rw [selected, nextCallee_of_isEmpty hempty] at hid
        cases hid
  | false =>
      obtain ⟨record, rest, hrecord, hget, hqueue, hqueue'⟩ := queue_nextCallee h hempty draw
      refine ⟨fun r hr => ?_, fun id other hid hno hagain hstay hother hne => ?_⟩
      · rw [hrecord] at hr
        cases hr
        exact hget
      · rw [selected, hrecord] at hid
        obtain rfl : record.registrationId = id := Option.some.inj hid
        -- from here on, `record` is last in the queue
        have hcallees : (e.step (.nextCallee draw)).callees = e.callees := callees_nextCallee h draw
        have hin : other ∈ e.queue := by
          rw [mem_queue, ← hcallees]
          exact stays_head hother
        have hstart : Between record.registrationId other (e.step (.nextCallee draw)).queue 0 := by
          rw [step, hqueue']
          rw [hqueue] at hin
          exact .start ((List.mem_cons.mp hin).resolve_left hne)
        obtain ⟨h', hb⟩ := between_run hbetween (h.step _) hno hstart hstay hother
        rw [Nat.zero_add] at hb
        cases hempty' : e'.callees.isEmpty with
        | true =>
            rw [selected, nextCallee_of_isEmpty hempty'] at hagain
            cases hagain
        | false =>
            obtain ⟨again, rest', hagain', _, hfront, _⟩ := queue_nextCallee h' hempty' draw'
            rw [selected, hagain'] at hagain
            have hsame : again.registrationId = record.registrationId := Option.some.inj hagain
            have hnodup := nodup_queue e'
            rw [hfront, hsame] at hb hnodup
            exact hb.once hnodup

/-! ### Three callees -/

def callee (registrationId : Nat) : RegistrationRecord where
  registrationId := registrationId
  procedure := "com.shared"
  sessionId := registrationId
  authRole := none
  details := .empty
  matchPolicy := .exact

def threeCallees : ProcedureEntry :=
  create 1 "com.shared" .exact .roundRobin [callee 1, callee 2, callee 3] 0

/-- Callee `1` has had its turn, and callee `3` goes after that of `2`. -/
theorem threeCallees_fair :
    Fair (threeCallees.step (.nextCallee 0)) 0 [.removeCallee 3, .nextCallee 0]
      ([.nextCallee 0, .nextCallee 0, .removeCallee 3, .nextCallee 0].foldl step threeCallees) 0 := by
  have hbefore : Run step InTurn threeCallees [.nextCallee 0]
      (threeCallees.step (.nextCallee 0)) := .of_admitted (by decide +kernel)
  have hbetween : Run step InTurn ((threeCallees.step (.nextCallee 0)).step (.nextCallee 0))
      [.removeCallee 3, .nextCallee 0]
      ([.nextCallee 0, .nextCallee 0, .removeCallee 3, .nextCallee 0].foldl step threeCallees) :=
    .of_admitted (by decide +kernel)
  exact roundRobin_fair hbefore hbetween

/-- Callees `1` and `2` have had their turn and `1` goes: `2` has its turn again, before `3`. -/
theorem skipped_turn :
    ¬ Fair (threeCallees.step (.nextCallee 0)) 0 [.removeCallee 1]
      ([.nextCallee 0, .nextCallee 0, .removeCallee 1].foldl step threeCallees) 0 := by
  intro h
  have honce := h.once 2 3 (by decide +kernel) (by decide +kernel) (by decide +kernel)
    (by decide +kernel) (by decide +kernel) (by decide)
  exact absurd honce (by decide +kernel)

end ProcedureEntry

end Connectanum
