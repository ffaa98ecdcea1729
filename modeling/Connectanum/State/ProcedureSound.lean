import Connectanum.State.Realm

/-!
# State — Sound procedure tables

The counterpart of `SubscriptionTable.Sound` for registrations: `proceduresById`, the index by
registration id and the three pattern tables agree with each other and with `held`, the relation
"open session `s` lists registration `id`".

* `Sound.register`: a registration under an unused id adds one pair to `held`;
* `Sound.unregister`: an unregistration takes one pair away;
* `calleeOf_unregister`: and changes no other registration;
* `Sound.modify`: a dispatch, which moves an entry's cursor and stamps its callee, changes
  nothing that the tables record.
-/

namespace Connectanum

open Collections

namespace ProcedureTable

/-- The entry `e` at `r` is in the atlas, under its own policy and procedure. -/
def Live (t : ProcedureTable) (r : Ref) (e : ProcedureEntry) : Prop :=
  t.heap.get? r = some e ∧ t.procedureAtlas.patterns.get? e.matchPolicy e.procedure = some r

structure Sound (t : ProcedureTable) (held : Nat → Nat → Prop) : Prop where
  /-- The two tables by registration id are one. -/
  registrations_eq : ∀ id, t.proceduresById.get? id = t.procedureAtlas.registrations.get? id
  /-- `proceduresById` leads each callee's registration id to its entry in the atlas. -/
  byId_iff : ∀ id r, t.proceduresById.get? id = some r ↔
    ∃ e, t.Live r e ∧ ∃ c, e.callees.get? id = some c
  /-- The atlas holds each entry under its own policy and procedure. -/
  atlas_own : ∀ p procedure r, t.procedureAtlas.patterns.get? p procedure = some r →
    ∃ e, t.heap.get? r = some e ∧ e.matchPolicy = p ∧ e.procedure = procedure
  /-- A callee is listed by its session. -/
  callee_held : ∀ r e, t.Live r e → ∀ id c, e.callees.get? id = some c →
    c.registrationId = id ∧ held c.sessionId id
  /-- A session lists registrations only in which it is the callee. -/
  held_callee : ∀ s id, held s id →
    ∃ r e c, t.Live r e ∧ e.callees.get? id = some c ∧ c.sessionId = s
  /-- No entry is without callees. -/
  inhabited : ∀ r e, t.Live r e → ∃ id c, e.callees.get? id = some c
  /-- The id an entry was created under belongs to no other entry. -/
  own_id : ∀ r e, t.Live r e → ∀ r', t.proceduresById.get? e.registrationId = some r' → r' = r

namespace Sound

variable {t : ProcedureTable} {held held' : Nat → Nat → Prop}

theorem empty : Sound {} (fun _ _ => False) where
  registrations_eq := by simp
  byId_iff := by simp [Live]
  atlas_own := by simp
  callee_held := by simp [Live]
  held_callee := by simp
  inhabited := by simp [Live]
  own_id := by simp

theorem congr (h : t.Sound held) (e : ∀ s id, held s id ↔ held' s id) : t.Sound held' := by
  have : held = held' := funext fun s => funext fun id => propext (e s id)
  exact this ▸ h

theorem byId_of_live (h : t.Sound held) {r : Ref} {e : ProcedureEntry} (hl : t.Live r e)
    {id : Nat} {c : RegistrationRecord} (hc : e.callees.get? id = some c) :
    t.proceduresById.get? id = some r :=
  (h.byId_iff id r).mpr ⟨e, hl, c, hc⟩

/-- A callee id belongs to one entry. -/
theorem ref_unique (h : t.Sound held) {r r' : Ref} {e e' : ProcedureEntry} {id : Nat}
    {c c' : RegistrationRecord} (hl : t.Live r e) (hc : e.callees.get? id = some c)
    (hl' : t.Live r' e') (hc' : e'.callees.get? id = some c') : r = r' := by
  have h₁ := h.byId_of_live hl hc
  rw [h.byId_of_live hl' hc'] at h₁
  exact (Option.some.inj h₁).symm

theorem live_of_find (h : t.Sound held) {id : Nat} {r : Ref} {e : ProcedureEntry}
    (hf : t.findProcedureByRegistrationId id = some (r, e)) :
    t.Live r e ∧ ∃ c, e.callees.get? id = some c := by
  simp only [findProcedureByRegistrationId, Option.bind_eq_some_iff, Option.map_eq_some_iff,
    Prod.mk.injEq] at hf
  obtain ⟨r', hr', e', he', rfl, rfl⟩ := hf
  rw [← h.registrations_eq] at hr'
  obtain ⟨e'', hl, hc⟩ := (h.byId_iff id r').mp hr'
  have : e'' = e' := Option.some.inj (hl.1.symm.trans he')
  exact this ▸ ⟨hl, hc⟩

end Sound

/-! ### Updates of one entry -/

theorem heap_modify (t : ProcedureTable) (r r' : Ref) (f : ProcedureEntry → ProcedureEntry) :
    (t.modify r f).heap.get? r' = if r' = r then (t.heap.get? r).map f else t.heap.get? r' :=
  t.heap.get?_modify r r' f

/-- The liveness of entries under an update that keeps an entry's key. -/
theorem live_modify {t : ProcedureTable} {r : Ref} {f : ProcedureEntry → ProcedureEntry}
    {e : ProcedureEntry} (hr : t.heap.get? r = some e) (hp : (f e).matchPolicy = e.matchPolicy)
    (hq : (f e).procedure = e.procedure) (r' : Ref) (e' : ProcedureEntry) :
    (t.modify r f).Live r' e' ↔
      (r' = r ∧ e' = f e ∧ t.Live r e) ∨ (r' ≠ r ∧ t.Live r' e') := by
  unfold Live
  rw [heap_modify]
  by_cases hrr : r' = r
  · subst hrr
    rw [if_pos rfl, hr]
    constructor
    · rintro ⟨h₁, h₂⟩
      obtain rfl := Option.some.inj h₁
      rw [hp, hq] at h₂
      exact .inl ⟨rfl, rfl, rfl, h₂⟩
    · rintro (⟨_, rfl, _, h₂⟩ | ⟨hn, _⟩)
      · exact ⟨rfl, by rw [hp, hq]; exact h₂⟩
      · exact absurd rfl hn
  · simp [hrr, modify]

/-- Two versions of an entry that the tables cannot tell apart: the same key, and callees that
differ in the time of their last invocation at most. -/
structure SameCallees (e e' : ProcedureEntry) : Prop where
  registrationId : e'.registrationId = e.registrationId
  procedure : e'.procedure = e.procedure
  matchPolicy : e'.matchPolicy = e.matchPolicy
  policy : e'.policy = e.policy
  created : e'.created = e.created
  callee_iff : ∀ id, (∃ c, e'.callees.get? id = some c) ↔ ∃ c, e.callees.get? id = some c
  callee : ∀ id c c', e.callees.get? id = some c → e'.callees.get? id = some c' →
    c'.registrationId = c.registrationId ∧ c'.sessionId = c.sessionId ∧ c'.details = c.details

theorem SameCallees.refl (e : ProcedureEntry) : SameCallees e e :=
  ⟨rfl, rfl, rfl, rfl, rfl, fun _ => Iff.rfl, fun _ _ _ h h' => by
    obtain rfl := Option.some.inj (h.symm.trans h')
    exact ⟨rfl, rfl, rfl⟩⟩

theorem SameCallees.trans {e e' e'' : ProcedureEntry} (h : SameCallees e e')
    (h' : SameCallees e' e'') : SameCallees e e'' where
  registrationId := h'.registrationId.trans h.registrationId
  procedure := h'.procedure.trans h.procedure
  matchPolicy := h'.matchPolicy.trans h.matchPolicy
  policy := h'.policy.trans h.policy
  created := h'.created.trans h.created
  callee_iff id := (h'.callee_iff id).trans (h.callee_iff id)
  callee id c c'' hc hc'' := by
    obtain ⟨c', hc'⟩ := (h.callee_iff id).mpr ⟨c, hc⟩
    obtain ⟨hr, hs, hd⟩ := h.callee id c c' hc hc'
    obtain ⟨hr', hs', hd'⟩ := h'.callee id c' c'' hc' hc''
    exact ⟨hr'.trans hr, hs'.trans hs, hd'.trans hd⟩

theorem SameCallees.of_callees_eq {e e' : ProcedureEntry}
    (hi : e'.registrationId = e.registrationId) (hq : e'.procedure = e.procedure)
    (hp : e'.matchPolicy = e.matchPolicy) (hl : e'.policy = e.policy)
    (hn : e'.created = e.created) (hc : e'.callees = e.callees) : SameCallees e e' :=
  ⟨hi, hq, hp, hl, hn, fun _ => by rw [hc], fun _ _ _ h h' => by
    rw [hc, h] at h'
    obtain rfl := Option.some.inj h'
    exact ⟨rfl, rfl, rfl⟩⟩

theorem orderedCallees_same (e : ProcedureEntry) : SameCallees e e.orderedCallees.2 := by
  unfold ProcedureEntry.orderedCallees
  split
  · split
    · exact .refl e
    · exact .of_callees_eq rfl rfl rfl rfl rfl rfl
  · exact .of_callees_eq rfl rfl rfl rfl rfl rfl

theorem nextCallee_same (e : ProcedureEntry) (draw : Nat) :
    SameCallees e (e.nextCallee draw).2 := by
  have ho := orderedCallees_same e
  unfold ProcedureEntry.nextCallee
  split
  · exact .refl e
  · cases e.policy with
    | single => exact .refl e
    | load => exact .refl e
    | random => exact ho
    | first => exact ho
    | last => exact ho
    | roundRobin =>
        dsimp only
        split
        · exact ho
        · exact ⟨ho.1, ho.2, ho.3, ho.4, ho.5, ho.6, ho.7⟩

theorem touchCallee_same (e : ProcedureEntry) (id now : Nat) :
    SameCallees e (e.touchCallee id now) := by
  unfold ProcedureEntry.touchCallee
  cases hc : e.callees.get? id with
  | none => exact .refl e
  | some c =>
      refine ⟨rfl, rfl, rfl, rfl, rfl, fun i => ?_, fun i c₁ c₂ h₁ h₂ => ?_⟩
      · simp only [SplayMap.get?_insert]
        by_cases hi : i = id
        · simp [hi, hc]
        · simp [hi]
      · simp only [SplayMap.get?_insert] at h₂
        split at h₂
        · next hi =>
          subst hi
          obtain rfl := Option.some.inj (hc.symm.trans h₁)
          obtain rfl := Option.some.inj h₂
          exact ⟨rfl, rfl, rfl⟩
        · obtain rfl := Option.some.inj (h₁.symm.trans h₂)
          exact ⟨rfl, rfl, rfl⟩

/-- **An update that keeps the callees keeps the tables sound.** -/
theorem Sound.modify {t : ProcedureTable} {held : Nat → Nat → Prop} (h : t.Sound held) {r : Ref}
    {e : ProcedureEntry} {f : ProcedureEntry → ProcedureEntry} (hr : t.heap.get? r = some e)
    (hs : SameCallees e (f e)) : (t.modify r f).Sound held := by
  have hlive := live_modify hr hs.matchPolicy hs.procedure
  refine ⟨h.registrations_eq, fun id r' => ?_, fun p q r' hr' => ?_, fun r' e' hl id c hc => ?_,
    fun s id hh => ?_, fun r' e' hl => ?_, fun r' e' hl r'' hr'' => ?_⟩
  · rw [show (t.modify r f).proceduresById = t.proceduresById from rfl, h.byId_iff]
    constructor
    · rintro ⟨e', hl, hc⟩
      by_cases hrr : r' = r
      · subst hrr
        obtain rfl := Option.some.inj (hl.1.symm.trans hr)
        exact ⟨_, (hlive _ _).mpr (.inl ⟨rfl, rfl, hl⟩), (hs.callee_iff id).mpr hc⟩
      · exact ⟨e', (hlive _ _).mpr (.inr ⟨hrr, hl⟩), hc⟩
    · rintro ⟨e', hl, hc⟩
      rcases (hlive _ _).mp hl with ⟨rfl, rfl, hl₀⟩ | ⟨_, hl₀⟩
      · exact ⟨e, hl₀, (hs.callee_iff id).mp hc⟩
      · exact ⟨e', hl₀, hc⟩
  · obtain ⟨e', he', hp, hq⟩ := h.atlas_own p q r' hr'
    rw [heap_modify]
    by_cases hrr : r' = r
    · subst hrr
      obtain rfl := Option.some.inj (he'.symm.trans hr)
      exact ⟨f e', by rw [if_pos rfl, he']; rfl, hs.matchPolicy.trans hp, hs.procedure.trans hq⟩
    · exact ⟨e', by rw [if_neg hrr, he'], hp, hq⟩
  · rcases (hlive _ _).mp hl with ⟨rfl, rfl, hl₀⟩ | ⟨_, hl₀⟩
    · obtain ⟨c₀, hc₀⟩ := (hs.callee_iff id).mp ⟨c, hc⟩
      obtain ⟨h₁, h₂, -⟩ := hs.callee id c₀ c hc₀ hc
      rw [h₁, h₂]
      exact h.callee_held r' e hl₀ id c₀ hc₀
    · exact h.callee_held r' e' hl₀ id c hc
  · obtain ⟨r', e', c, hl, hc, hcs⟩ := h.held_callee s id hh
    by_cases hrr : r' = r
    · subst hrr
      obtain rfl := Option.some.inj (hl.1.symm.trans hr)
      obtain ⟨c', hc'⟩ := (hs.callee_iff id).mpr ⟨c, hc⟩
      exact ⟨r', _, c', (hlive _ _).mpr (.inl ⟨rfl, rfl, hl⟩), hc',
        (hs.callee id c c' hc hc').2.1.trans hcs⟩
    · exact ⟨r', e', c, (hlive _ _).mpr (.inr ⟨hrr, hl⟩), hc, hcs⟩
  · rcases (hlive _ _).mp hl with ⟨rfl, rfl, hl₀⟩ | ⟨_, hl₀⟩
    · obtain ⟨id, c, hc⟩ := h.inhabited r' e hl₀
      exact ⟨id, (hs.callee_iff id).mpr ⟨c, hc⟩⟩
    · exact h.inhabited r' e' hl₀
  · rcases (hlive _ _).mp hl with ⟨rfl, rfl, hl₀⟩ | ⟨_, hl₀⟩
    · rw [hs.registrationId] at hr''
      exact h.own_id r' e hl₀ r'' hr''
    · exact h.own_id r' e' hl₀ r'' hr''

/-- The entries of `t'` are entries of `t`, with callees that differ in the time of their last
invocation at most. -/
def Rested (t t' : ProcedureTable) : Prop :=
  ∀ r e', t'.heap.get? r = some e' → ∃ e, t.heap.get? r = some e ∧ SameCallees e e'

theorem Rested.refl (t : ProcedureTable) : Rested t t := fun _ e he => ⟨e, he, .refl e⟩

theorem Rested.trans {t t' t'' : ProcedureTable} (h : Rested t t') (h' : Rested t' t'') :
    Rested t t'' := by
  intro r e'' he''
  obtain ⟨e', he', hs'⟩ := h' r e'' he''
  obtain ⟨e, he, hs⟩ := h r e' he'
  exact ⟨e, he, hs.trans hs'⟩

theorem Rested.modify (t : ProcedureTable) (r : Ref) {f : ProcedureEntry → ProcedureEntry}
    (hf : ∀ e, t.heap.get? r = some e → SameCallees e (f e)) : Rested t (t.modify r f) := by
  intro r' e' he'
  rw [heap_modify] at he'
  split at he'
  · next hr =>
    subst hr
    obtain ⟨e, he, rfl⟩ := Option.map_eq_some_iff.mp he'
    exact ⟨e, he, hf e he⟩
  · exact ⟨e', he', .refl e'⟩

/-! ### Registering -/

/-- `id` is neither a callee's registration id nor the id of an entry. -/
def Unused (t : ProcedureTable) (id : Nat) : Prop :=
  t.proceduresById.get? id = none ∧ ∀ r e, t.Live r e → e.registrationId ≠ id

theorem live_addRegistration {t : ProcedureTable} {r : Ref} {e : ProcedureEntry}
    (hr : t.heap.get? r = some e) (record : RegistrationRecord) (r' : Ref) (e' : ProcedureEntry) :
    (t.addRegistration r record).Live r' e' ↔
      (r' = r ∧ e' = e.addCallee record ∧ t.Live r e) ∨ (r' ≠ r ∧ t.Live r' e') :=
  live_modify (f := fun e => e.addCallee record) hr rfl rfl r' e'

theorem exists_addCallee_iff (e : ProcedureEntry) (record : RegistrationRecord) (id : Nat) :
    (∃ c, (e.addCallee record).callees.get? id = some c) ↔
      (id = record.registrationId ∨ ∃ c, e.callees.get? id = some c) := by
  simp only [ProcedureEntry.addCallee, SplayMap.get?_insert]
  by_cases h : id = record.registrationId <;> simp [h]

theorem get?_addCallee {e : ProcedureEntry} {record c : RegistrationRecord} {id : Nat}
    (h : (e.addCallee record).callees.get? id = some c) :
    (id = record.registrationId ∧ c = record) ∨ e.callees.get? id = some c := by
  simp only [ProcedureEntry.addCallee, SplayMap.get?_insert] at h
  split at h
  · next hi => exact .inl ⟨hi, (Option.some.inj h).symm⟩
  · exact .inr h

/-- The tables when `e` is found in, or was just added to, the atlas: all that a registration
needs of them.  `inhabited` is left to the registration itself. -/
structure Accepts (t : ProcedureTable) (held : Nat → Nat → Prop) (r : Ref) (e : ProcedureEntry)
    (id : Nat) : Prop where
  live : t.Live r e
  registrations_eq : ∀ i, t.proceduresById.get? i = t.procedureAtlas.registrations.get? i
  byId_iff : ∀ i r, t.proceduresById.get? i = some r ↔
    ∃ e, t.Live r e ∧ ∃ c, e.callees.get? i = some c
  atlas_own : ∀ p procedure r, t.procedureAtlas.patterns.get? p procedure = some r →
    ∃ e, t.heap.get? r = some e ∧ e.matchPolicy = p ∧ e.procedure = procedure
  callee_held : ∀ r e, t.Live r e → ∀ id c, e.callees.get? id = some c →
    c.registrationId = id ∧ held c.sessionId id
  held_callee : ∀ s id, held s id →
    ∃ r e c, t.Live r e ∧ e.callees.get? id = some c ∧ c.sessionId = s
  inhabited : ∀ r' e', t.Live r' e' → r' ≠ r → ∃ id c, e'.callees.get? id = some c
  own_id : ∀ r e, t.Live r e → ∀ r', t.proceduresById.get? e.registrationId = some r' → r' = r
  unused : t.proceduresById.get? id = none
  other_id : ∀ r' e', t.Live r' e' → r' ≠ r → e'.registrationId ≠ id

theorem Accepts.register {t : ProcedureTable} {held : Nat → Nat → Prop} {r : Ref}
    {e : ProcedureEntry} {record : RegistrationRecord}
    (h : t.Accepts held r e record.registrationId) :
    (t.addRegistration r record).Sound
      (fun s i => held s i ∨ (s = record.sessionId ∧ i = record.registrationId)) := by
  have hlive := live_addRegistration h.live.1 record
  have hby : ∀ i, (t.addRegistration r record).proceduresById.get? i =
      if i = record.registrationId then some r else t.proceduresById.get? i := fun i =>
    t.proceduresById.get?_insert _ i r
  refine ⟨fun i => ?_, fun i r' => ?_, fun p q r' hr' => ?_, fun r' e' hl i c hc => ?_,
    fun s i hh => ?_, fun r' e' hl => ?_, fun r' e' hl r'' hr'' => ?_⟩
  · have := t.procedureAtlas.registrations.get?_insert record.registrationId i r
    rw [hby]
    simp only [addRegistration, ProcedureAtlas.indexRegistration, this, h.registrations_eq]
  · rw [hby]
    constructor
    · intro hi
      split at hi
      · next hid =>
        obtain rfl := Option.some.inj hi
        exact ⟨_, (hlive _ _).mpr (.inl ⟨rfl, rfl, h.live⟩),
          (exists_addCallee_iff e record i).mpr (.inl hid)⟩
      · obtain ⟨e', hl, hc⟩ := (h.byId_iff i r').mp hi
        by_cases hr : r' = r
        · subst hr
          obtain rfl := Option.some.inj (hl.1.symm.trans h.live.1)
          exact ⟨_, (hlive _ _).mpr (.inl ⟨rfl, rfl, hl⟩),
            (exists_addCallee_iff e' record i).mpr (.inr hc)⟩
        · exact ⟨e', (hlive _ _).mpr (.inr ⟨hr, hl⟩), hc⟩
    · rintro ⟨e', hl, hc⟩
      rcases (hlive _ _).mp hl with ⟨rfl, rfl, hl₀⟩ | ⟨hr, hl₀⟩
      · rcases (exists_addCallee_iff e record i).mp hc with rfl | hc
        · exact if_pos rfl
        · split
          · rfl
          · exact (h.byId_iff i r').mpr ⟨e, hl₀, hc⟩
      · have hb := (h.byId_iff i r').mpr ⟨e', hl₀, hc⟩
        rw [if_neg, hb]
        rintro rfl
        rw [h.unused] at hb
        cases hb
  · obtain ⟨e', he', hp, hq⟩ := h.atlas_own p q r' hr'
    have : (t.addRegistration r record).heap.get? r' =
        if r' = r then (t.heap.get? r).map (·.addCallee record) else t.heap.get? r' :=
      t.heap.get?_modify r r' _
    rw [this]
    by_cases hr : r' = r
    · subst hr
      exact ⟨e'.addCallee record, by rw [if_pos rfl, he']; rfl, hp, hq⟩
    · exact ⟨e', by rw [if_neg hr, he'], hp, hq⟩
  · rcases (hlive _ _).mp hl with ⟨rfl, rfl, hl₀⟩ | ⟨_, hl₀⟩
    · rcases get?_addCallee hc with ⟨rfl, rfl⟩ | hc
      · exact ⟨rfl, .inr ⟨rfl, rfl⟩⟩
      · obtain ⟨h₁, h₂⟩ := h.callee_held r' e hl₀ i c hc
        exact ⟨h₁, .inl h₂⟩
    · obtain ⟨h₁, h₂⟩ := h.callee_held r' e' hl₀ i c hc
      exact ⟨h₁, .inl h₂⟩
  · rcases hh with hh | ⟨rfl, rfl⟩
    · obtain ⟨r', e', c, hl, hc, hcs⟩ := h.held_callee s i hh
      by_cases hr : r' = r
      · subst hr
        obtain rfl := Option.some.inj (hl.1.symm.trans h.live.1)
        -- the new record is under an id that no callee had
        have hne : i ≠ record.registrationId := by
          rintro rfl
          have := (h.byId_iff _ r').mpr ⟨e', hl, c, hc⟩
          rw [h.unused] at this
          cases this
        refine ⟨r', _, c, (hlive _ _).mpr (.inl ⟨rfl, rfl, hl⟩), ?_, hcs⟩
        rw [ProcedureEntry.addCallee, SplayMap.get?_insert_of_ne _ _ hne, hc]
      · exact ⟨r', e', c, (hlive _ _).mpr (.inr ⟨hr, hl⟩), hc, hcs⟩
    · refine ⟨r, _, record, (hlive _ _).mpr (.inl ⟨rfl, rfl, h.live⟩), ?_, rfl⟩
      rw [ProcedureEntry.addCallee, SplayMap.get?_insert_self]
  · rcases (hlive _ _).mp hl with ⟨rfl, rfl, _⟩ | ⟨hr, hl₀⟩
    · exact ⟨record.registrationId, (exists_addCallee_iff e record _).mpr (.inl rfl)⟩
    · exact h.inhabited r' e' hl₀ hr
  · rw [hby] at hr''
    rcases (hlive _ _).mp hl with ⟨rfl, rfl, hl₀⟩ | ⟨hr, hl₀⟩
    · split at hr''
      · exact (Option.some.inj hr'').symm
      · exact h.own_id r' e hl₀ r'' hr''
    · rw [if_neg (h.other_id r' e' hl₀ hr)] at hr''
      exact h.own_id r' e' hl₀ r'' hr''

/-- The table after a new entry was allocated for `procedure`. -/
theorem live_create {t : ProcedureTable} {procedure : String} {p : ProcedureMatchPolicy}
    (hnew : t.procedureAtlas.patterns.get? p procedure = none) (policy : InvocationPolicy)
    (id now : Nat) (r : Ref) (e : ProcedureEntry) :
    (t.findOrCreateProcedure procedure id policy p now).1.Live r e ↔
      (r = t.heap.next ∧ e = { registrationId := id, procedure := procedure, matchPolicy := p,
                               policy := policy, created := now }) ∨
      t.Live r e := by
  simp only [findOrCreateProcedure, hnew, Live]
  exact PatternIndex.reached_alloc ProcedureEntry.matchPolicy
    ProcedureEntry.procedure hnew r e

theorem Sound.accepts_new {t : ProcedureTable} {held : Nat → Nat → Prop} (h : t.Sound held)
    {procedure : String} {p : ProcedureMatchPolicy} {id : Nat} (hu : t.Unused id)
    (hnew : t.procedureAtlas.patterns.get? p procedure = none) (policy : InvocationPolicy)
    (now : Nat) :
    (t.findOrCreateProcedure procedure id policy p now).1.Accepts held t.heap.next
      { registrationId := id, procedure := procedure, matchPolicy := p, policy := policy,
        created := now } id := by
  have hlive := live_create hnew policy id now
  have hold : ∀ {r e'}, t.Live r e' → r ≠ t.heap.next := fun hl hr =>
    absurd (Heap.lt_next hl.1) (by rw [hr]; exact Nat.lt_irrefl _)
  have hby : (t.findOrCreateProcedure procedure id policy p now).1.proceduresById =
      t.proceduresById := by
    simp only [findOrCreateProcedure, hnew]
  refine ⟨(hlive _ _).mpr (.inl ⟨rfl, rfl⟩), fun i => ?_, fun i r => ?_, fun p' q r hr => ?_,
    fun r e hl i c hc => ?_, fun s i hh => ?_, fun r e hl hr => ?_, fun r e hl r' hr' => ?_,
    ?_, fun r e hl hr => ?_⟩
  · rw [hby, h.registrations_eq]
    simp only [findOrCreateProcedure, hnew]
  · rw [hby, h.byId_iff]
    constructor
    · rintro ⟨e, hl, hc⟩
      exact ⟨e, (hlive _ _).mpr (.inr hl), hc⟩
    · rintro ⟨e, hl, c, hc⟩
      rcases (hlive _ _).mp hl with ⟨rfl, rfl⟩ | hl
      · cases hc
      · exact ⟨e, hl, c, hc⟩
  · simp only [findOrCreateProcedure, hnew, PatternIndex.get?_insert] at hr
    simp only [findOrCreateProcedure, hnew, Heap.get?_alloc]
    split at hr
    · next hpq =>
      obtain rfl := Option.some.inj hr
      exact ⟨_, if_pos rfl, hpq.1.symm, hpq.2.symm⟩
    · obtain ⟨e, he, hp, hq⟩ := h.atlas_own p' q r hr
      exact ⟨e, by rw [if_neg (hold ⟨he, by rw [hp, hq]; exact hr⟩), he], hp, hq⟩
  · rcases (hlive _ _).mp hl with ⟨rfl, rfl⟩ | hl
    · cases hc
    · exact h.callee_held r e hl i c hc
  · obtain ⟨r, e, c, hl, hc⟩ := h.held_callee s i hh
    exact ⟨r, e, c, (hlive _ _).mpr (.inr hl), hc⟩
  · rcases (hlive _ _).mp hl with ⟨rfl, _⟩ | hl
    · exact absurd rfl hr
    · exact h.inhabited r e hl
  · rw [hby] at hr'
    rcases (hlive _ _).mp hl with ⟨rfl, rfl⟩ | hl
    · rw [hu.1] at hr'
      cases hr'
    · exact h.own_id r e hl r' hr'
  · rw [hby]
    exact hu.1
  · rcases (hlive _ _).mp hl with ⟨rfl, _⟩ | hl
    · exact absurd rfl hr
    · exact hu.2 r e hl

/-- **Registering keeps the tables sound.**  `r` is where the entry is found or created. -/
theorem Sound.register {t t' : ProcedureTable} {held : Nat → Nat → Prop} (h : t.Sound held)
    {procedure : String} {p : ProcedureMatchPolicy} {policy : InvocationPolicy} {now : Nat}
    {r : Ref} {record : RegistrationRecord} (hu : t.Unused record.registrationId)
    (hf : t.findOrCreateProcedure procedure record.registrationId policy p now = (t', r)) :
    (t'.addRegistration r record).Sound
      (fun s i => held s i ∨ (s = record.sessionId ∧ i = record.registrationId)) := by
  cases hat : t.procedureAtlas.patterns.get? p procedure with
  | some r₀ =>
      simp only [findOrCreateProcedure, hat, Prod.mk.injEq] at hf
      obtain ⟨rfl, rfl⟩ := hf
      obtain ⟨e, he, hp, hq⟩ := h.atlas_own p procedure r₀ hat
      exact Accepts.register (e := e)
        { live := ⟨he, by rw [hp, hq]; exact hat⟩
          registrations_eq := h.registrations_eq
          byId_iff := h.byId_iff
          atlas_own := h.atlas_own
          callee_held := h.callee_held
          held_callee := h.held_callee
          inhabited := fun r' e' hl _ => h.inhabited r' e' hl
          own_id := h.own_id
          unused := hu.1
          other_id := fun r' e' hl _ => hu.2 r' e' hl }
  | none =>
      have ha := h.accepts_new hu hat policy now
      simp only [findOrCreateProcedure, hat, Prod.mk.injEq] at hf ha
      obtain ⟨rfl, rfl⟩ := hf
      exact ha.register

/-! ### Unregistering -/

theorem exists_removeCallee_iff (e : ProcedureEntry) (id i : Nat) :
    (e.removeCallee id).callees.get? i = if i = id then none else e.callees.get? i := by
  unfold ProcedureEntry.removeCallee
  cases hc : e.callees.get? id with
  | none =>
      by_cases hi : i = id
      · rw [if_pos hi, hi, hc]
      · rw [if_neg hi]
  | some c => exact e.callees.get?_erase id i

@[simp] theorem removeCallee_matchPolicy (e : ProcedureEntry) (id : Nat) :
    (e.removeCallee id).matchPolicy = e.matchPolicy := by
  unfold ProcedureEntry.removeCallee
  split <;> rfl

@[simp] theorem removeCallee_procedure (e : ProcedureEntry) (id : Nat) :
    (e.removeCallee id).procedure = e.procedure := by
  unfold ProcedureEntry.removeCallee
  split <;> rfl

@[simp] theorem removeCallee_registrationId (e : ProcedureEntry) (id : Nat) :
    (e.removeCallee id).registrationId = e.registrationId := by
  unfold ProcedureEntry.removeCallee
  split <;> rfl

/-- What an unregistration does to each table. -/
structure Unregistered (t t' : ProcedureTable) (r : Ref) (e : ProcedureEntry) (id : Nat) :
    Prop where
  heap : ∀ r', t'.heap.get? r' = if r' = r then some (e.removeCallee id) else t.heap.get? r'
  byId : ∀ i, t'.proceduresById.get? i = if i = id then none else t.proceduresById.get? i
  registrations : ∀ i, t'.procedureAtlas.registrations.get? i =
    if i = id then none else t.procedureAtlas.registrations.get? i
  patterns : ∀ p q, t'.procedureAtlas.patterns.get? p q =
    if (e.removeCallee id).callees.isEmpty = true ∧ p = e.matchPolicy ∧ q = e.procedure then none
    else t.procedureAtlas.patterns.get? p q

theorem Sound.unregistered {t : ProcedureTable} {held : Nat → Nat → Prop} (h : t.Sound held)
    {id : Nat} {r : Ref} {e : ProcedureEntry}
    (hf : t.findProcedureByRegistrationId id = some (r, e)) :
    Unregistered t (t.unregister r e id) r e id := by
  obtain ⟨hl, c, hc⟩ := h.live_of_find hf
  have hid : t.procedureAtlas.registrations.get? id = some r := by
    rw [← h.registrations_eq]
    exact h.byId_of_live hl hc
  let t₁ := (t.modify r (·.removeCallee id)).dropRegistration id
  have hheap : ∀ r', t₁.heap.get? r' =
      if r' = r then some (e.removeCallee id) else t.heap.get? r' := fun r' => by
    have := heap_modify t r r' (·.removeCallee id)
    rw [hl.1] at this
    exact this
  have hbyId : ∀ i, t₁.proceduresById.get? i =
      if i = id then none else t.proceduresById.get? i := fun i =>
    t.proceduresById.get?_erase id i
  have hmod : (t.modify r (·.removeCallee id)).heap.get? r = some (e.removeCallee id) := by
    rw [heap_modify, if_pos rfl, hl.1]
    rfl
  have hreg : t₁.procedureAtlas.registrations =
      t.procedureAtlas.registrations.erase id := by
    simp only [t₁, dropRegistration, ProcedureAtlas.removeRegistration]
    rw [show (t.modify r (·.removeCallee id)).procedureAtlas = t.procedureAtlas from rfl, hid]
    dsimp only
    rw [hmod]
    dsimp only
    split <;> rfl
  have hpat : ∀ p q, t₁.procedureAtlas.patterns.get? p q =
      if (e.removeCallee id).callees.isEmpty = true ∧ p = e.matchPolicy ∧ q = e.procedure then none
      else t.procedureAtlas.patterns.get? p q := fun p q => by
    simp only [t₁, dropRegistration, ProcedureAtlas.removeRegistration]
    rw [show (t.modify r (·.removeCallee id)).procedureAtlas = t.procedureAtlas from rfl, hid]
    dsimp only
    rw [hmod]
    dsimp only
    cases (e.removeCallee id).callees.isEmpty
    · simp
    · simp [PatternIndex.get?_erase]
  have h₁ : Unregistered t t₁ r e id :=
    ⟨hheap, hbyId, fun i => by rw [hreg, LinkedMap.get?_erase], hpat⟩
  by_cases hemp : (e.removeCallee id).callees.isEmpty = true
  · have hkeys : (e.removeCallee id).callees.keys = [] := by
      rw [SplayMap.keys, List.isEmpty_iff.mp hemp]
      rfl
    have hun : t.unregister r e id = t₁.dropRegistration e.registrationId := by
      unfold unregister
      dsimp only
      rw [if_pos hemp, removeProcedure, hkeys, removeCallee_registrationId]
      rfl
    -- the entry's own id is gone already: it was `id`, or it left with an earlier callee
    have hgone : t₁.proceduresById.get? e.registrationId = none := by
      rw [hbyId]
      by_cases hi : e.registrationId = id
      · rw [if_pos hi]
      · rw [if_neg hi, Option.eq_none_iff_forall_ne_some]
        intro r' hr'
        obtain rfl := h.own_id r e hl r' hr'
        obtain ⟨e', hl', c', hc'⟩ := (h.byId_iff _ _).mp hr'
        obtain rfl := Option.some.inj (hl'.1.symm.trans hl.1)
        have := SplayMap.isEmpty_iff.mp hemp e'.registrationId
        rw [exists_removeCallee_iff, if_neg hi, hc'] at this
        cases this
    have hgone' : t₁.procedureAtlas.registrations.get? e.registrationId = none := by
      rw [h₁.registrations, ← h.registrations_eq, ← hbyId]
      exact hgone
    rw [hun]
    have hat : (t₁.dropRegistration e.registrationId).procedureAtlas = t₁.procedureAtlas := by
      simp only [dropRegistration, ProcedureAtlas.removeRegistration, hgone']
    refine ⟨hheap, fun i => ?_, fun i => ?_, fun p q => ?_⟩
    · have := t₁.proceduresById.get?_erase e.registrationId i
      rw [show (t₁.dropRegistration e.registrationId).proceduresById.get? i = _ from this, hbyId]
      by_cases hi : i = e.registrationId
      · rw [if_pos hi, hi, ← hbyId, hgone]
      · rw [if_neg hi]
    · rw [hat]
      exact h₁.registrations i
    · rw [hat]
      exact hpat p q
  · have hun : t.unregister r e id = t₁ := by
      unfold unregister
      dsimp only
      rw [if_neg hemp]
    rw [hun]
    exact h₁

/-- The live entries after an unregistration. -/
theorem live_unregister {t t' : ProcedureTable} {r : Ref} {e : ProcedureEntry} {id : Nat}
    (hl : t.Live r e) (hu : Unregistered t t' r e id) (r' : Ref) (e' : ProcedureEntry) :
    t'.Live r' e' ↔
      (r' = r ∧ e' = e.removeCallee id ∧ (e.removeCallee id).callees.isEmpty = false) ∨
      (r' ≠ r ∧ t.Live r' e') := by
  unfold Live
  rw [hu.heap, hu.patterns]
  by_cases hr : r' = r
  · subst hr
    rw [if_pos rfl]
    constructor
    · rintro ⟨h₁, h₂⟩
      obtain rfl := Option.some.inj h₁
      rw [removeCallee_matchPolicy, removeCallee_procedure] at h₂
      refine .inl ⟨rfl, rfl, ?_⟩
      rw [Bool.eq_false_iff]
      intro hemp
      rw [if_pos ⟨hemp, rfl, rfl⟩] at h₂
      cases h₂
    · rintro (⟨_, rfl, hemp⟩ | ⟨hn, _⟩)
      · rw [if_neg (by simp [hemp]), removeCallee_matchPolicy, removeCallee_procedure]
        exact ⟨rfl, hl.2⟩
      · exact absurd rfl hn
  · rw [if_neg hr]
    constructor
    · rintro ⟨h₁, h₂⟩
      split at h₂
      · cases h₂
      · exact .inr ⟨hr, h₁, h₂⟩
    · rintro (⟨hn, _⟩ | ⟨_, h₁, h₂⟩)
      · exact absurd hn hr
      · refine ⟨h₁, ?_⟩
        rw [if_neg, h₂]
        rintro ⟨_, hp, hq⟩
        rw [hp, hq, hl.2] at h₂
        exact hr (Option.some.inj h₂).symm

/-- **Unregistering keeps the tables sound.**  `s` is the session whose callee it was. -/
theorem Sound.unregister {t : ProcedureTable} {held : Nat → Nat → Prop} (h : t.Sound held)
    {id s : Nat} {r : Ref} {e : ProcedureEntry} {c : RegistrationRecord}
    (hf : t.findProcedureByRegistrationId id = some (r, e))
    (hc : e.callees.get? id = some c) (hs : c.sessionId = s) :
    (t.unregister r e id).Sound (fun s' i => held s' i ∧ ¬ (s' = s ∧ i = id)) := by
  obtain ⟨hl, _⟩ := h.live_of_find hf
  have hu := h.unregistered hf
  have hlive := live_unregister hl hu
  have hlost : ∀ i c', e.callees.get? i = some c' → i ≠ id →
      (e.removeCallee id).callees.isEmpty = false := fun i c' hc' hi => by
    rw [Bool.eq_false_iff]
    intro hemp
    have := SplayMap.isEmpty_iff.mp hemp i
    rw [exists_removeCallee_iff, if_neg hi, hc'] at this
    cases this
  refine ⟨fun i => ?_, fun i r' => ?_, fun p q r' hr' => ?_, fun r' e' hle i c' hc' => ?_,
    fun s' i hh => ?_, fun r' e' hle => ?_, fun r' e' hle r'' hr'' => ?_⟩
  · rw [hu.byId, hu.registrations, h.registrations_eq]
  · rw [hu.byId]
    constructor
    · intro hi
      split at hi
      · cases hi
      · next hne =>
        obtain ⟨e', hle, c', hc'⟩ := (h.byId_iff i r').mp hi
        by_cases hr : r' = r
        · subst hr
          obtain rfl := Option.some.inj (hle.1.symm.trans hl.1)
          refine ⟨_, (hlive _ _).mpr (.inl ⟨rfl, rfl, hlost i c' hc' hne⟩), c', ?_⟩
          rw [exists_removeCallee_iff, if_neg hne, hc']
        · exact ⟨e', (hlive _ _).mpr (.inr ⟨hr, hle⟩), c', hc'⟩
    · rintro ⟨e', hle, c', hc'⟩
      rcases (hlive _ _).mp hle with ⟨rfl, rfl, _⟩ | ⟨hr, hl₀⟩
      · rw [exists_removeCallee_iff] at hc'
        split at hc'
        · cases hc'
        · next hne => rw [if_neg hne, h.byId_of_live hl hc']
      · rw [if_neg, h.byId_of_live hl₀ hc']
        rintro rfl
        exact hr (h.ref_unique hl₀ hc' hl hc)
  · have hat : t.procedureAtlas.patterns.get? p q = some r' := by
      rw [hu.patterns] at hr'
      split at hr'
      · cases hr'
      · exact hr'
    obtain ⟨e', he', hp, hq⟩ := h.atlas_own p q r' hat
    rw [hu.heap]
    by_cases hr : r' = r
    · subst hr
      obtain rfl := Option.some.inj (he'.symm.trans hl.1)
      exact ⟨_, if_pos rfl, (removeCallee_matchPolicy e' id).trans hp,
        (removeCallee_procedure e' id).trans hq⟩
    · exact ⟨e', by rw [if_neg hr, he'], hp, hq⟩
  · rcases (hlive _ _).mp hle with ⟨rfl, rfl, _⟩ | ⟨hr, hl₀⟩
    · rw [exists_removeCallee_iff] at hc'
      split at hc'
      · cases hc'
      · next hne =>
        obtain ⟨h₁, h₂⟩ := h.callee_held r' e hl i c' hc'
        exact ⟨h₁, h₂, fun hh => hne hh.2⟩
    · obtain ⟨h₁, h₂⟩ := h.callee_held r' e' hl₀ i c' hc'
      refine ⟨h₁, h₂, ?_⟩
      rintro ⟨_, rfl⟩
      exact hr (h.ref_unique hl₀ hc' hl hc)
  · obtain ⟨hh, hne⟩ := hh
    obtain ⟨r', e', c', hle, hc', hcs⟩ := h.held_callee s' i hh
    have hi : i ≠ id := by
      rintro rfl
      have hr := h.ref_unique hle hc' hl hc
      subst hr
      obtain rfl := Option.some.inj (hle.1.symm.trans hl.1)
      obtain rfl := Option.some.inj (hc'.symm.trans hc)
      exact hne ⟨hcs.symm.trans hs, rfl⟩
    by_cases hr : r' = r
    · subst hr
      obtain rfl := Option.some.inj (hle.1.symm.trans hl.1)
      refine ⟨r', _, c', (hlive _ _).mpr (.inl ⟨rfl, rfl, hlost i c' hc' hi⟩), ?_, hcs⟩
      rw [exists_removeCallee_iff, if_neg hi, hc']
    · exact ⟨r', e', c', (hlive _ _).mpr (.inr ⟨hr, hle⟩), hc', hcs⟩
  · rcases (hlive _ _).mp hle with ⟨rfl, rfl, hemp⟩ | ⟨_, hl₀⟩
    · by_contra hno
      push Not at hno
      have : (e.removeCallee id).callees.isEmpty = true :=
        SplayMap.isEmpty_iff.mpr fun k => Option.eq_none_iff_forall_ne_some.mpr (hno k)
      rw [this] at hemp
      cases hemp
    · exact h.inhabited r' e' hl₀
  · rw [hu.byId] at hr''
    split at hr''
    · cases hr''
    · rcases (hlive _ _).mp hle with ⟨rfl, rfl, _⟩ | ⟨_, hl₀⟩
      · rw [removeCallee_registrationId] at hr''
        exact h.own_id r' e hl r'' hr''
      · exact h.own_id r' e' hl₀ r'' hr''

/-! ### Registrations one by one -/

/-- The callee that registration `id` names. -/
def calleeOf (t : ProcedureTable) (id : Nat) : Option RegistrationRecord :=
  (t.findProcedureByRegistrationId id).bind fun (_, e) => e.callees.get? id

/-- An unregistration ends one registration and touches no other. -/
theorem calleeOf_unregister {t : ProcedureTable} {held : Nat → Nat → Prop} (h : t.Sound held)
    {id : Nat} {r : Ref} {e : ProcedureEntry}
    (hf : t.findProcedureByRegistrationId id = some (r, e)) (i : Nat) :
    (t.unregister r e id).calleeOf i = if i = id then none else t.calleeOf i := by
  obtain ⟨hl, _⟩ := h.live_of_find hf
  have hu := h.unregistered hf
  unfold calleeOf findProcedureByRegistrationId
  rw [hu.registrations]
  by_cases hi : i = id
  · simp [hi]
  · rw [if_neg hi, if_neg hi]
    cases hr : t.procedureAtlas.registrations.get? i with
    | none => rfl
    | some r' =>
        simp only [Option.bind_some, hu.heap]
        by_cases hrr : r' = r
        · subst hrr
          simp [hl.1, exists_removeCallee_iff, hi]
        · simp [hrr]

theorem heap_of_bestOf {better : ProcedureEntry → ProcedureEntry → Bool}
    {heap : Heap ProcedureEntry} {procedure : String} {m : LinkedMap String Ref} {r : Ref}
    {e : ProcedureEntry} (h : ProcedureAtlas.bestOf better heap procedure m = some (r, e)) :
    heap.get? r = some e := by
  revert h
  refine List.foldlRecOn (motive := fun best => best = some (r, e) → heap.get? r = some e)
    _ _ (fun h => by cases h) fun best hbest r₀ _ hnew => ?_
  cases h₀ : heap.get? r₀ with
  | none =>
      simp only [h₀] at hnew
      exact hbest hnew
  | some entry =>
      have hfound : some (r₀, entry) = some (r, e) → heap.get? r = some e := by
        rintro ⟨⟩
        exact h₀
      simp only [h₀] at hnew
      split at hnew
      · exact hbest hnew
      · split at hnew
        · exact hfound hnew
        · split at hnew
          · exact hfound hnew
          · exact hbest hnew

/-- A lookup finds an entry where it says. -/
theorem heap_of_lookup {atlas : ProcedureAtlas} {heap : Heap ProcedureEntry} {procedure : String}
    {r : Ref} {e : ProcedureEntry} (h : atlas.lookup heap procedure = some (r, e)) :
    heap.get? r = some e := by
  unfold ProcedureAtlas.lookup at h
  split at h
  · next found hfound =>
    simp only [Option.bind_eq_some_iff, Option.map_eq_some_iff] at hfound
    obtain ⟨r', _, e', he', rfl⟩ := hfound
    obtain ⟨rfl, rfl⟩ := Prod.mk.inj (Option.some.inj h)
    exact he'
  · split at h
    · next found hfound =>
      rw [h] at hfound
      exact heap_of_bestOf hfound
    · exact heap_of_bestOf h

end ProcedureTable

end Connectanum
