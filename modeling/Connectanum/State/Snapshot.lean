import Connectanum.State.Integrity

/-!
# State — Snapshot

A snapshot shows the entries that the atlases lead to, each of them once.

* `mem_subscriptions`, `mem_registrations`: the entries shown;
* `nodup_subscriptions`, `nodup_registrations`: no id is shown twice.
-/

namespace Connectanum

open Collections

def SubscriptionEntry.toSnapshot (e : SubscriptionEntry) : SubscriptionSnapshot :=
  { id := e.id, topic := e.topic, matchPolicy := e.matchPolicy, subscribers := e.subscribers.values,
    options := e.options, created := e.created }

def ProcedureEntry.toSnapshot (e : ProcedureEntry) : RegistrationSnapshot :=
  { registrationId := e.registrationId, procedure := e.procedure, policy := e.policy,
    matchPolicy := e.matchPolicy, callees := e.callees.values, created := e.created }

/-- An object that a table leads to has its key in it, so it is there once. -/
theorem nodup_values {κ α : Type} [DecidableEq κ] {m : LinkedMap κ Ref} (heap : Heap α)
    (keyOf : α → κ) (h : ∀ k r, m.get? k = some r → ∃ a, heap.get? r = some a ∧ keyOf a = k) :
    m.values.Nodup := by
  refine List.Nodup.of_map (fun r => (heap.get? r).map keyOf) ?_
  have hkeys : m.values.map (fun r => (heap.get? r).map keyOf) = (m.entries.map Prod.fst).map some := by
    rw [LinkedMap.values, List.map_map, List.map_map]
    refine List.map_congr_left fun x hx => ?_
    obtain ⟨a, ha, hk⟩ := h x.1 x.2 (LinkedMap.mem_entries.mp hx)
    simp [ha, hk]
  rw [hkeys]
  exact m.nodup.map (Option.some_injective κ)

/-- Objects with different ids, each referred to once. -/
theorem nodup_ids {α : Type} {heap : Heap α} {idOf : α → Nat} {refs : List Ref} (hn : refs.Nodup)
    (h : ∀ r ∈ refs, ∀ r' ∈ refs, ∀ a a', heap.get? r = some a → heap.get? r' = some a' →
      idOf a = idOf a' → r = r') :
    ((refs.filterMap heap.get?).map idOf).Nodup := by
  induction refs with
  | nil => exact List.nodup_nil
  | cons r rest ih =>
      rw [List.nodup_cons] at hn
      have hrest := ih hn.2 fun r hr r' hr' =>
        h r (List.mem_cons_of_mem _ hr) r' (List.mem_cons_of_mem _ hr')
      cases ha : heap.get? r with
      | none => simpa [ha] using hrest
      | some a =>
          rw [List.filterMap_cons, ha, List.map_cons, List.nodup_cons]
          refine ⟨fun hmem => ?_, hrest⟩
          obtain ⟨a', ha', hid⟩ := List.mem_map.mp hmem
          obtain ⟨r', hr', hget⟩ := List.mem_filterMap.mp ha'
          have heq := h r' (List.mem_cons_of_mem _ hr') r List.mem_cons_self a' a hget ha hid
          exact hn.1 (heq ▸ hr')

namespace RealmRecord

variable {ids : WampIdAllocatorRegistry} {r : RealmRecord} {heldS heldR : Nat → Nat → Prop}

/-- The entries that a snapshot shows as subscriptions. -/
theorem mem_subscriptions (h : r.SoundFor ids heldS heldR) {x : SubscriptionSnapshot} :
    x ∈ r.buildSnapshot.subscriptions ↔ ∃ ref e, r.subscriptions.Live ref e ∧ x = e.toSnapshot := by
  rw [buildSnapshot, List.mem_map]
  constructor
  · rintro ⟨e, he, rfl⟩
    obtain ⟨ref, href, hget⟩ := List.mem_filterMap.mp he
    obtain ⟨id, hid⟩ := LinkedMap.mem_values.mp href
    exact ⟨ref, e, (h.subscriptions.live_of_byId hid hget).1, rfl⟩
  · rintro ⟨ref, e, hl, rfl⟩
    refine ⟨e, List.mem_filterMap.mpr ⟨ref, ?_, hl.1⟩, rfl⟩
    exact LinkedMap.mem_values.mpr ⟨e.id, h.subscriptions.byId_of_live hl⟩

theorem nodup_subscriptions (h : r.SoundFor ids heldS heldR) :
    (r.buildSnapshot.subscriptions.map (·.id)).Nodup := by
  have hown : ∀ id ref, r.subscriptions.subscriptionsById.get? id = some ref →
      ∃ e, r.subscriptions.Live ref e ∧ e.id = id := fun id ref => (h.subscriptions.byId_iff id ref).mp
  rw [buildSnapshot, List.map_map]
  refine nodup_ids (nodup_values r.subscriptions.heap (·.id) fun id ref hid => ?_)
    fun ref hr ref' hr' e e' he he' heq => ?_
  · obtain ⟨e, hl, hid⟩ := hown id ref hid
    exact ⟨e, hl.1, hid⟩
  · obtain ⟨id, hid⟩ := LinkedMap.mem_values.mp hr
    obtain ⟨id', hid'⟩ := LinkedMap.mem_values.mp hr'
    obtain ⟨hl, rfl⟩ := h.subscriptions.live_of_byId hid he
    obtain ⟨hl', rfl⟩ := h.subscriptions.live_of_byId hid' he'
    exact h.subscriptions.ref_unique hl hl' heq

/-- The references in the atlas of procedures. -/
theorem mem_atlas {procs : ProcedureTable} {ref : Ref} :
    ref ∈ procs.procedureAtlas.patterns.exact.values ++
        procs.procedureAtlas.patterns.prefixes.values ++
        procs.procedureAtlas.patterns.wildcards.values ↔
      ∃ p procedure, procs.procedureAtlas.patterns.get? p procedure = some ref := by
  rw [List.mem_append, List.mem_append, LinkedMap.mem_values, LinkedMap.mem_values,
    LinkedMap.mem_values]
  constructor
  · rintro ((⟨q, hq⟩ | ⟨q, hq⟩) | ⟨q, hq⟩)
    · exact ⟨.exact, q, hq⟩
    · exact ⟨.prefixed, q, hq⟩
    · exact ⟨.wildcard, q, hq⟩
  · rintro ⟨p, q, hq⟩
    cases p with
    | exact => exact .inl (.inl ⟨q, hq⟩)
    | prefixed => exact .inl (.inr ⟨q, hq⟩)
    | wildcard => exact .inr ⟨q, hq⟩

/-- The entries that a snapshot shows as registrations. -/
theorem mem_registrations (h : r.SoundFor ids heldS heldR) {x : RegistrationSnapshot} :
    x ∈ r.buildSnapshot.registrations ↔ ∃ ref e, r.procedures.Live ref e ∧ x = e.toSnapshot := by
  rw [buildSnapshot, List.mem_map]
  constructor
  · rintro ⟨e, he, rfl⟩
    obtain ⟨ref, href, hget⟩ := List.mem_filterMap.mp he
    obtain ⟨p, q, hq⟩ := mem_atlas.mp href
    obtain ⟨e', he', rfl, rfl⟩ := h.procedures.atlas_own p q ref hq
    obtain rfl := Option.some.inj (he'.symm.trans hget)
    exact ⟨ref, e', ⟨hget, hq⟩, rfl⟩
  · rintro ⟨ref, e, hl, rfl⟩
    exact ⟨e, List.mem_filterMap.mpr ⟨ref, mem_atlas.mpr ⟨_, _, hl.2⟩, hl.1⟩, rfl⟩

theorem nodup_table (h : r.SoundFor ids heldS heldR) (p : ProcedureMatchPolicy) :
    (r.procedures.procedureAtlas.patterns.table p).values.Nodup := by
  refine nodup_values r.procedures.heap (·.procedure) fun q ref hq => ?_
  obtain ⟨e, he, -, rfl⟩ := h.procedures.atlas_own p q ref hq
  exact ⟨e, he, rfl⟩

theorem nodup_atlas (h : r.SoundFor ids heldS heldR) :
    (r.procedures.procedureAtlas.patterns.exact.values ++
      r.procedures.procedureAtlas.patterns.prefixes.values ++
      r.procedures.procedureAtlas.patterns.wildcards.values).Nodup := by
  have hown := h.procedures.atlas_own
  -- an entry is under its own policy only
  have hapart : ∀ p p', p ≠ p' → ∀ ref ∈ (r.procedures.procedureAtlas.patterns.table p).values,
      ∀ ref' ∈ (r.procedures.procedureAtlas.patterns.table p').values, ref ≠ ref' := by
    rintro p p' hne ref hr ref' hr' rfl
    obtain ⟨q, hq⟩ := LinkedMap.mem_values.mp hr
    obtain ⟨q', hq'⟩ := LinkedMap.mem_values.mp hr'
    obtain ⟨e, he, rfl, -⟩ := hown p q ref hq
    obtain ⟨e', he', rfl, -⟩ := hown p' q' ref hq'
    exact hne (by rw [Option.some.inj (he.symm.trans he')])
  refine List.nodup_append.mpr ⟨List.nodup_append.mpr ⟨nodup_table h .exact,
    nodup_table h .prefixed, hapart .exact .prefixed nofun⟩, nodup_table h .wildcard, fun ref hr ref' hr' => ?_⟩
  rcases List.mem_append.mp hr with hr | hr
  · exact hapart .exact .wildcard nofun ref hr ref' hr'
  · exact hapart .prefixed .wildcard nofun ref hr ref' hr'

theorem nodup_registrations (h : r.SoundFor ids heldS heldR)
    (halone : ∀ ref ref' e e', r.procedures.heap.get? ref = some e →
      r.procedures.heap.get? ref' = some e' → e.registrationId = e'.registrationId → ref = ref') :
    (r.buildSnapshot.registrations.map (·.registrationId)).Nodup := by
  rw [buildSnapshot, List.map_map]
  exact nodup_ids (nodup_atlas h) fun ref _ ref' _ e e' => halone ref ref' e e'

end RealmRecord

end Connectanum
