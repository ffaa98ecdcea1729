import Connectanum.Lib.Handles
import Mathlib.Data.Nat.Bitwise

/-!
# Native — MessageHandles

The handles under which the FFI hands out stored messages: `MessageStore` numbers them for the
legacy ABI, where a handle is a positive `i32`; `WideMessageStore` numbers them in `u64`, and keeps
bit 31 set, so that a wide handle that is narrowed is never one of the others.
-/

namespace Connectanum

namespace MessageHandles

open Handles (Scheme Table)

universe u

variable {α : Type u}

inductive MessageHandleError where
  | unavailable
  | exhausted
  deriving DecidableEq, Repr

def i32Max : Nat := 2147483647
def u32Max : Nat := 4294967295
def i64Max : Nat := 9223372036854775807

/-- `NARROW_SIGN_BIT`. -/
def narrowSignBit : Nat := 2147483648

/-- `FIRST_WIDE_HANDLE`: `(1 << 32) | NARROW_SIGN_BIT`. -/
def firstWideHandle : Nat := 4294967296 ||| narrowSignBit

theorem firstWideHandle_eq : firstWideHandle = 6442450944 := rfl

/-! ### The two counters -/

inductive Space where
  | narrow
  | wide
  deriving DecidableEq, Repr

namespace Space

/-- What the closures of `fetch_update` make of `next_id`. -/
def next : Space → Nat → Option Nat
  | narrow, next => if next = 0 ∨ i32Max < next then none else some (next + 1)
  | wide, next =>
      if ¬ (firstWideHandle ≤ next ∧ next ≤ i64Max) ∨ next &&& narrowSignBit = 0 then none
      else
        -- At the carry of the low word: past all that would be positive when narrowed.
        some (next + if next % 4294967296 = u32Max then narrowSignBit + 1 else 1)

theorem lt_next {space : Space} {n m : Nat} (h : space.next n = some m) : n < m := by
  cases space with
  | narrow =>
      simp only [next] at h
      split at h
      · cases h
      · obtain rfl := Option.some.inj h
        exact Nat.lt_succ_self n
  | wide =>
      simp only [next] at h
      split at h
      · cases h
      · obtain rfl := Option.some.inj h
        refine Nat.lt_add_of_pos_right ?_
        split
        · exact Nat.succ_pos _
        · exact Nat.one_pos

def scheme (space : Space) : Scheme := ⟨space.next, lt_next⟩

def last : Space → Nat
  | narrow => i32Max
  | wide => i64Max

/-- The handles of the space: what `id as i32` makes of a wide one is no narrow handle. -/
def Holds : Space → Nat → Prop
  | narrow, id => 1 ≤ id ∧ id ≤ i32Max
  | wide, id => u32Max < id ∧ id ≤ i64Max ∧ (BitVec.ofNat 32 id).toInt ≤ 0

/-- No number is a handle of both. -/
theorem Holds.unique {space space' : Space} {id : Nat} (h : space.Holds id)
    (h' : space'.Holds id) : space = space' := by
  have hdisjoint : narrow.Holds id → wide.Holds id → False := by
    intro hnarrow hwide
    exact absurd (Nat.lt_of_lt_of_le hwide.1 hnarrow.2) (by decide)
  cases space <;> cases space'
  · rfl
  · exact (hdisjoint h h').elim
  · exact (hdisjoint h' h).elim
  · rfl

theorem and_narrowSignBit (n : Nat) : n &&& narrowSignBit = 0 ↔ n / 2147483648 % 2 = 0 := by
  have hbit : narrowSignBit = 2 ^ 31 := rfl
  have hpos : 2 ^ 31 ≠ 0 := by decide
  rw [hbit, Nat.and_two_pow, Nat.mul_eq_zero, or_iff_left hpos, Nat.toNat_testBit]

/-- A handle that can be given out lies in the space, and all but the last have a successor. -/
theorem next_some {space : Space} {n m : Nat} (h : space.next n = some m) :
    space.Holds n ∧ (n = space.last ∨ (space.next m).isSome) := by
  cases space with
  | narrow =>
      simp only [next] at h
      split at h
      · cases h
      · next hvalid =>
        push Not at hvalid
        obtain rfl := Option.some.inj h
        refine ⟨⟨Nat.one_le_iff_ne_zero.mpr hvalid.1, hvalid.2⟩, ?_⟩
        rcases Nat.eq_or_lt_of_le hvalid.2 with hlast | hlt
        · exact .inl hlast
        · have hin : ¬ (n + 1 = 0 ∨ i32Max < n + 1) := by omega
          right
          rw [next, if_neg hin]
          rfl
  | wide =>
      simp only [next] at h
      split at h
      · cases h
      · next hvalid =>
        obtain ⟨⟨hfirst, hlast⟩, hbit⟩ :
            (firstWideHandle ≤ n ∧ n ≤ i64Max) ∧ ¬ n &&& narrowSignBit = 0 := by
          simpa only [not_or, not_not] using hvalid
        rw [and_narrowSignBit] at hbit
        obtain rfl := Option.some.inj h
        refine ⟨⟨Nat.lt_of_lt_of_le (by decide) hfirst, hlast, ?_⟩, ?_⟩
        · rw [BitVec.toInt_eq_toNat_cond, BitVec.toNat_ofNat]
          split <;> omega
        · rw [or_iff_not_imp_left]
          intro hmore
          rw [next, if_neg]
          · rfl
          · rw [and_narrowSignBit]
            -- The last handle ends a block, so that another block follows every carry.
            by_cases hcarry : n % 4294967296 = u32Max
            · rw [if_pos hcarry]
              simp only [last, u32Max, narrowSignBit, i64Max, firstWideHandle_eq] at *
              omega
            · rw [if_neg hcarry]
              simp only [last, u32Max, i64Max, firstWideHandle_eq] at *
              omega

theorem next_firstWideHandle : (wide.next firstWideHandle).isSome := by decide

theorem holds_last (space : Space) : space.Holds space.last := by
  cases space
  · exact ⟨by decide, Nat.le_refl _⟩
  · exact ⟨by decide, Nat.le_refl _, by decide⟩

theorem next_eq_none {space : Space} {n : Nat} (h : space.last < n) : space.next n = none := by
  cases space with
  | narrow => exact if_pos (.inr h)
  | wide => exact if_pos (.inl fun hin => absurd h (Nat.not_lt.mpr hin.2))

end Space

/-! ### The two stores -/

structure Stores (α : Type u) where
  messages : Table α
  wideMessages : Table α

namespace Stores

/-- `MessageStore::default` and `WideMessageStore::default`. -/
def initial : Stores α := ⟨⟨1, .empty⟩, ⟨firstWideHandle, .empty⟩⟩

def table (s : Stores α) : Space → Table α
  | .narrow => s.messages
  | .wide => s.wideMessages

def issued : Option Nat → Except MessageHandleError Nat
  | some id => .ok id
  | none => .error .exhausted

def storeMessage (s : Stores α) (message : α) : Except MessageHandleError Nat × Stores α :=
  let (id, messages) := s.messages.insert Space.narrow.scheme message
  (issued id, { s with messages })

def insert (s : Stores α) (message : α) : Except MessageHandleError Nat × Stores α :=
  let (id, wideMessages) := s.wideMessages.insert Space.wide.scheme message
  (issued id, { s with wideMessages })

def retainMessageAllocation (s : Stores α) (id : UInt32) : Option α := s.messages.get? id.toNat

def retainAllocation (s : Stores α) (id : UInt64) : Option α :=
  if id.toNat ≤ i32Max then s.retainMessageAllocation id.toUInt32
  else s.wideMessages.get? id.toNat

def removeMessage (s : Stores α) (id : UInt32) : Option α × Stores α :=
  (s.messages.get? id.toNat, { s with messages := s.messages.remove id.toNat })

def remove (s : Stores α) (id : UInt64) : Option α × Stores α :=
  if id.toNat ≤ i32Max then s.removeMessage id.toUInt32
  else (s.wideMessages.get? id.toNat, { s with wideMessages := s.wideMessages.remove id.toNat })

def retain (s : Stores α) (id : UInt64) : Except MessageHandleError Nat × Stores α :=
  match s.retainAllocation id with
  | none => (.error .unavailable, s)
  | some message => s.insert message

def cloneMessage (s : Stores α) (id : UInt32) : Except MessageHandleError Nat × Stores α :=
  match s.messages.get? id.toNat with
  | none => (.error .unavailable, s)
  | some message => s.storeMessage message

/-- `message_handles::clear`, the first half of `clear_messages`. -/
def clear (s : Stores α) : Stores α := { s with wideMessages := s.wideMessages.clear }

/-- `MessageStore::clear`, the other half. -/
def clearMessages (s : Stores α) : Stores α := { s with messages := s.messages.clear }

end Stores

inductive Op (α : Type u) where
  | storeMessage (message : α)
  | insert (message : α)
  | retain (id : UInt64)
  | cloneMessage (id : UInt32)
  | remove (id : UInt64)
  | removeMessage (id : UInt32)
  | clear
  | clearMessages

/-- What an operation reports: a handle or why there is none, or the message that it removed. -/
inductive Answer (α : Type u) where
  | handle (result : Except MessageHandleError Nat)
  | removed (message : Option α)
  | cleared

namespace Stores

def perform (s : Stores α) : Op α → Answer α × Stores α
  | .storeMessage message => let (result, s) := s.storeMessage message; (.handle result, s)
  | .insert message => let (result, s) := s.insert message; (.handle result, s)
  | .retain id => let (result, s) := s.retain id; (.handle result, s)
  | .cloneMessage id => let (result, s) := s.cloneMessage id; (.handle result, s)
  | .remove id => let (message, s) := s.remove id; (.removed message, s)
  | .removeMessage id => let (message, s) := s.removeMessage id; (.removed message, s)
  | .clear => (.cleared, s.clear)
  | .clearMessages => (.cleared, s.clearMessages)

end Stores

/-- The counter from which an operation takes the handle that it gives out. -/
def Op.space : Op α → Option Space
  | .storeMessage _ | .cloneMessage _ => some .narrow
  | .insert _ | .retain _ => some .wide
  | .remove _ | .removeMessage _ | .clear | .clearMessages => none

/-- The handles that an operation removes or clears. -/
def Op.Drops (id : UInt64) : Op α → Prop
  | .remove id' => id' = id
  | .removeMessage id' => id'.toNat = id.toNat
  | .clear => i32Max < id.toNat
  | .clearMessages => id.toNat ≤ i32Max
  | .storeMessage _ | .cloneMessage _ | .insert _ | .retain _ => False

def Answer.handles : Answer α → List Nat
  | .handle (.ok id) => [id]
  | .handle (.error _) | .removed _ | .cleared => []

/-! ### One operation -/

namespace Stores

variable {s s' : Stores α} {space : Space} {op : Op α}

def withTable (s : Stores α) : Space → Table α → Stores α
  | .narrow, messages => { s with messages }
  | .wide, wideMessages => { s with wideMessages }

/-- `storeMessage` and `insert`, in either space. -/
def put (s : Stores α) (space : Space) (message : α) : Except MessageHandleError Nat × Stores α :=
  let (id, t) := (s.table space).insert space.scheme message
  (issued id, s.withTable space t)

@[simp] theorem table_withTable (t : Table α) : (s.withTable space t).table space = t := by
  cases space <;> rfl

theorem table_withTable_of_ne {space' : Space} (t : Table α) (h : space' ≠ space) :
    (s.withTable space t).table space' = s.table space' := by
  cases space <;> cases space'
  · exact absurd rfl h
  · rfl
  · rfl
  · exact absurd rfl h

@[simp] theorem withTable_table : s.withTable space (s.table space) = s := by
  cases space <;> rfl

/-- Both tables are as a change of one of them leaves them. -/
theorem forall_table_withTable {P : Space → Table α → Prop} {t : Table α} (ht : P space t)
    (hs : ∀ space', space' ≠ space → P space' (s.table space')) (space' : Space) :
    P space' ((s.withTable space t).table space') := by
  by_cases heq : space' = space
  · subst heq
    rw [table_withTable]
    exact ht
  · rw [table_withTable_of_ne t heq]
    exact hs space' heq

/-- An operation that gives out handles stores a message, or finds that there is none. -/
theorem perform_issuing (h : op.space = some space) :
    (∃ message, s.perform op = (.handle (s.put space message).1, (s.put space message).2)) ∨
      s.perform op = (.handle (.error .unavailable), s) := by
  cases op with
  | storeMessage message =>
      obtain rfl := Option.some.inj h
      exact .inl ⟨message, rfl⟩
  | insert message =>
      obtain rfl := Option.some.inj h
      exact .inl ⟨message, rfl⟩
  | retain id =>
      obtain rfl := Option.some.inj h
      simp only [perform, retain]
      cases s.retainAllocation id with
      | none => exact .inr rfl
      | some message => exact .inl ⟨message, rfl⟩
  | cloneMessage id =>
      obtain rfl := Option.some.inj h
      simp only [perform, cloneMessage]
      cases s.messages.get? id.toNat with
      | none => exact .inr rfl
      | some message => exact .inl ⟨message, rfl⟩
  | remove _ | removeMessage _ | clear | clearMessages => cases h

theorem space_of_handle {result : Except MessageHandleError Nat}
    (h : (s.perform op).1 = .handle result) : ∃ space, op.space = some space := by
  cases op with
  | storeMessage _ | cloneMessage _ | insert _ | retain _ => exact ⟨_, rfl⟩
  | remove id =>
      simp only [perform, remove] at h
      split at h <;> cases h
  | removeMessage _ | clear | clearMessages => cases h

/-- The other operations only take entries away. -/
theorem perform_removing (h : op.space = none) (space : Space) :
    (s.perform op).1.handles = [] ∧
      ((s.perform op).2.table space = s.table space ∨
        (∃ id, (s.perform op).2.table space = (s.table space).remove id) ∨
        (s.perform op).2.table space = (s.table space).clear) := by
  cases op with
  | storeMessage _ | cloneMessage _ | insert _ | retain _ => cases h
  | remove id =>
      simp only [perform, remove, removeMessage]
      split <;> cases space
      · exact ⟨rfl, .inr (.inl ⟨_, rfl⟩)⟩
      · exact ⟨rfl, .inl rfl⟩
      · exact ⟨rfl, .inl rfl⟩
      · exact ⟨rfl, .inr (.inl ⟨_, rfl⟩)⟩
  | removeMessage id =>
      cases space
      · exact ⟨rfl, .inr (.inl ⟨_, rfl⟩)⟩
      · exact ⟨rfl, .inl rfl⟩
  | clear =>
      cases space
      · exact ⟨rfl, .inl rfl⟩
      · exact ⟨rfl, .inr (.inr rfl)⟩
  | clearMessages =>
      cases space
      · exact ⟨rfl, .inr (.inr rfl)⟩
      · exact ⟨rfl, .inl rfl⟩

theorem toNat_narrow {id : UInt64} (h : id.toNat ≤ i32Max) : id.toUInt32.toNat = id.toNat := by
  rw [UInt64.toNat_toUInt32]
  exact Nat.mod_eq_of_lt (Nat.lt_of_le_of_lt h (by decide))

/-- A handle is looked up in the table of its space. -/
theorem retainAllocation_eq {id : UInt64} (h : space.Holds id.toNat) :
    s.retainAllocation id = (s.table space).get? id.toNat := by
  cases space with
  | narrow =>
      rw [retainAllocation, if_pos h.2, retainMessageAllocation, toNat_narrow h.2]
      rfl
  | wide =>
      rw [retainAllocation, if_neg]
      · rfl
      · exact Nat.not_le.mpr (Nat.lt_trans (by decide) h.1)

/-- What an operation drops is gone. -/
theorem get?_of_drops {id : UInt64} (h : space.Holds id.toNat) (hdrops : op.Drops id) :
    ((s.perform op).2.table space).get? id.toNat = none := by
  have hwide : space = .wide → ¬ id.toNat ≤ i32Max := by
    rintro rfl hle
    exact absurd (Nat.lt_of_lt_of_le h.1 hle) (by decide)
  cases op with
  | storeMessage _ | cloneMessage _ | insert _ | retain _ => exact hdrops.elim
  | remove id' =>
      obtain rfl : id' = id := hdrops
      simp only [perform, remove]
      cases space with
      | narrow =>
          rw [if_pos h.2, removeMessage, toNat_narrow h.2]
          exact Table.get?_remove_self _ _
      | wide =>
          rw [if_neg (hwide rfl)]
          exact Table.get?_remove_self _ _
  | removeMessage id' =>
      have hsame : id'.toNat = id.toNat := hdrops
      cases space with
      | narrow =>
          simp only [perform, removeMessage, table, hsame]
          exact Table.get?_remove_self _ _
      | wide =>
          have hlt : id.toNat < 4294967296 := hsame ▸ id'.toNat_lt
          exact absurd hlt (Nat.not_lt.mpr h.1)
  | clear =>
      cases space with
      | narrow => exact absurd h.2 (Nat.not_le.mpr hdrops)
      | wide => rfl
  | clearMessages =>
      cases space with
      | narrow => rfl
      | wide => exact absurd hdrops (hwide rfl)

end Stores

/-! ### Runs -/

/-- The handles given out so far, and the stores. -/
structure History (α : Type u) where
  issued : List Nat
  stores : Stores α

namespace History

def start : History α := ⟨[], .initial⟩

def perform (h : History α) (op : Op α) : History α :=
  let (answer, stores) := h.stores.perform op
  ⟨h.issued ++ answer.handles, stores⟩

/-- Every counter stands above the handles of its space, and stops at the last of them only. -/
structure Sound (h : History α) : Prop where
  spent : ∀ space : Space, (h.stores.table space).Spent
  counter : ∀ space : Space,
    (space.next (h.stores.table space).nextId).isSome ∨ space.last ∈ h.issued
  held : ∀ id ∈ h.issued, ∃ space : Space,
    space.Holds id ∧ id < (h.stores.table space).nextId
  nodup : h.issued.Nodup

variable {h h' : History α} {space : Space} {op : Op α}

theorem sound_start : (start : History α).Sound where
  spent space := by cases space <;> exact Table.spent_empty _
  counter space := .inl (by
    cases space with
    | narrow => rfl
    | wide => exact Space.next_firstWideHandle)
  held := nofun
  nodup := .nil

/-- A handle that has been given out, of a known space. -/
theorem Sound.lt_nextId (hs : h.Sound) {id : Nat} (hid : id ∈ h.issued) (hholds : space.Holds id) :
    id < (h.stores.table space).nextId := by
  obtain ⟨space', hholds', hlt⟩ := hs.held id hid
  rw [hholds.unique hholds']
  exact hlt

theorem Sound.next_eq_none (hs : h.Sound) (hlast : space.last ∈ h.issued) :
    space.next (h.stores.table space).nextId = none := by
  obtain ⟨space', hholds, hlt⟩ := hs.held _ hlast
  obtain rfl := hholds.unique (Space.holds_last space)
  exact Space.next_eq_none hlt

/-- The counter is at its end, or it stands at a handle that is new. -/
theorem Sound.put_cases (hs : h.Sound) (space : Space) (message : α) :
    (space.last ∈ h.issued ∧ h.stores.put space message = (.error .exhausted, h.stores)) ∨
      ∃ id stores, h.stores.put space message = (.ok id, stores) ∧ space.Holds id ∧
        id ∉ h.issued ∧ space.last ∉ h.issued ∧
        (⟨h.issued ++ [id], stores⟩ : History α).Sound ∧
        ∀ space', Table.Later (h.stores.table space') (stores.table space') := by
  rcases Table.insert_cases space.scheme (hs.spent space) message with
    ⟨hnone, heq⟩ | ⟨successor, hnext, heq⟩
  · left
    refine ⟨(hs.counter space).resolve_left ?_, ?_⟩
    · have hnone : space.next (h.stores.table space).nextId = none := hnone
      rw [hnone]
      exact Bool.false_ne_true
    · rw [Stores.put, heq]
      exact congrArg (Prod.mk _) Stores.withTable_table
  · right
    have hnext : space.next (h.stores.table space).nextId = some successor := hnext
    have hlater := Table.later_insert space.scheme (hs.spent space) message
    have hspent := (hs.spent space).insert space.scheme message
    rw [heq] at hlater hspent
    obtain ⟨hholds, hmore⟩ := Space.next_some hnext
    have hlaters := Stores.forall_table_withTable (s := h.stores)
      (P := fun space' => Table.Later (h.stores.table space')) hlater fun _ _ => .refl _
    refine ⟨_, _, by rw [Stores.put, heq]; rfl, hholds, ?_, ?_, ⟨?_, ?_, ?_, ?_⟩, hlaters⟩
    · intro hissued
      exact Nat.lt_irrefl _ (hs.lt_nextId hissued hholds)
    · intro hlast
      rw [hs.next_eq_none hlast] at hnext
      cases hnext
    · exact Stores.forall_table_withTable (P := fun _ => Table.Spent) hspent
        fun space' _ => hs.spent space'
    · refine Stores.forall_table_withTable
        (P := fun space' t => (space'.next t.nextId).isSome ∨
          space'.last ∈ h.issued ++ [(h.stores.table space).nextId]) ?_ fun space' _ => ?_
      · rcases hmore with hlast | hmore
        · exact .inr (List.mem_append_right _ (List.mem_singleton.mpr hlast.symm))
        · exact .inl hmore
      · exact (hs.counter space').imp_right (List.mem_append_left _)
    · intro id hid
      rcases List.mem_append.mp hid with hold | hnew
      · obtain ⟨space', hholds', hlt⟩ := hs.held id hold
        exact ⟨space', hholds', Nat.lt_of_lt_of_le hlt (hlaters space').counter⟩
      · obtain rfl := List.mem_singleton.mp hnew
        refine ⟨space, hholds, ?_⟩
        rw [Stores.table_withTable]
        exact Space.lt_next hnext
    · refine hs.nodup.append (List.nodup_singleton _) fun id hold hnew => ?_
      obtain rfl := List.mem_singleton.mp hnew
      exact Nat.lt_irrefl _ (hs.lt_nextId hold hholds)

/-- An operation that gives out handles fails and changes nothing, or gives out a new one. -/
theorem Sound.issuing_cases (hs : h.Sound) (hop : op.space = some space) :
    (∃ e, h.stores.perform op = (.handle (.error e), h.stores) ∧
        (e = .exhausted → space.last ∈ h.issued)) ∨
      ∃ id stores, h.stores.perform op = (.handle (.ok id), stores) ∧ space.Holds id ∧
        id ∉ h.issued ∧ space.last ∉ h.issued := by
  rcases Stores.perform_issuing (s := h.stores) hop with ⟨message, heq⟩ | heq
  · rcases hs.put_cases space message with
      ⟨hlast, hput⟩ | ⟨id, stores, hput, hholds, hnew, hmore, -⟩
    · exact .inl ⟨.exhausted, by rw [heq, hput], fun _ => hlast⟩
    · exact .inr ⟨id, stores, by rw [heq, hput], hholds, hnew, hmore⟩
  · exact .inl ⟨.unavailable, heq, nofun⟩

/-- What an operation leaves is sound again, and later in both tables. -/
theorem Sound.perform (hs : h.Sound) (op : Op α) :
    (h.perform op).Sound ∧
      ∀ space, Table.Later (h.stores.table space) ((h.perform op).stores.table space) := by
  cases hop : op.space with
  | some space =>
      rcases Stores.perform_issuing (s := h.stores) hop with ⟨message, heq⟩ | heq
      · rcases hs.put_cases space message with ⟨-, hput⟩ | ⟨id, stores, hput, -, -, -, hsound, hlater⟩
        · have hsame : h.perform op = h := by
            simp [History.perform, heq, hput, Answer.handles]
          rw [hsame]
          exact ⟨hs, fun space => .refl _⟩
        · have hnew : h.perform op = ⟨h.issued ++ [id], stores⟩ := by
            simp [History.perform, heq, hput, Answer.handles]
          rw [hnew]
          exact ⟨hsound, hlater⟩
      · have hsame : h.perform op = h := by
          simp [History.perform, heq, Answer.handles]
        rw [hsame]
        exact ⟨hs, fun space => .refl _⟩
  | none =>
      have hremoving := Stores.perform_removing (s := h.stores) hop
      have hissued : (h.perform op).issued = h.issued := by
        simp [History.perform, (hremoving .narrow).1]
      -- Neither counter moves, and no entry comes in.
      have htable : ∀ space, ((h.perform op).stores.table space).nextId =
            (h.stores.table space).nextId ∧
          ((h.perform op).stores.table space).Spent ∧
          Table.Later (h.stores.table space) ((h.perform op).stores.table space) := by
        intro space
        have hspent := hs.spent space
        change ((h.stores.perform op).2.table space).nextId = _ ∧
          ((h.stores.perform op).2.table space).Spent ∧
          Table.Later _ ((h.stores.perform op).2.table space)
        rcases (hremoving space).2 with heq | ⟨id, heq⟩ | heq
        · rw [heq]
          exact ⟨rfl, hspent, .refl _⟩
        · rw [heq]
          exact ⟨rfl, hspent.remove id, Table.later_remove id⟩
        · rw [heq]
          exact ⟨rfl, Table.Spent.clear, Table.later_clear⟩
      refine ⟨⟨fun space => (htable space).2.1, fun space => ?_, fun id hid => ?_, ?_⟩,
        fun space => (htable space).2.2⟩
      · rw [(htable space).1, hissued]
        exact hs.counter space
      · rw [hissued] at hid
        obtain ⟨space, hholds, hlt⟩ := hs.held id hid
        refine ⟨space, hholds, ?_⟩
        rw [(htable space).1]
        exact hlt
      · rw [hissued]
        exact hs.nodup

theorem Sound.foldl (hs : h.Sound) (ops : List (Op α)) :
    (ops.foldl History.perform h).Sound ∧
      ∀ space, Table.Later (h.stores.table space)
        ((ops.foldl History.perform h).stores.table space) := by
  induction ops generalizing h with
  | nil => exact ⟨hs, fun space => .refl _⟩
  | cons op ops ih =>
      obtain ⟨hstep, hlater⟩ := hs.perform op
      obtain ⟨hrun, hlater'⟩ := ih hstep
      exact ⟨hrun, fun space => (hlater space).trans (hlater' space)⟩

end History

/-- A process that has performed these operations. -/
def history (ops : List (Op α)) : History α := ops.foldl History.perform .start

theorem history_sound (ops : List (Op α)) : (history ops).Sound :=
  (History.sound_start.foldl ops).1

theorem history_append (ops more : List (Op α)) (op : Op α) :
    history (ops ++ op :: more) = more.foldl History.perform ((history ops).perform op) := by
  rw [history, List.foldl_append]
  rfl

/-- **Message handles never alias.** -/
theorem handles_never_alias (ops : List (Op α)) :
    -- A handle is new, and lies in the space that its operation counts in.
    (∀ op id, ((history ops).stores.perform op).1 = .handle (.ok id) →
      id ∉ (history ops).issued ∧ ∃ space, op.space = some space ∧ space.Holds id) ∧
    (history ops).issued.Nodup ∧
    -- What is removed or cleared never resolves again.
    (∀ (op : Op α) (id : UInt64), id.toNat ∈ (history ops).issued → op.Drops id →
      ∀ more, (history (ops ++ op :: more)).stores.retainAllocation id = none) ∧
    -- At the end of its space an operation fails, and only there does it find the space exhausted.
    (∀ op space, op.space = some space → space.last ∈ (history ops).issued →
      ∃ e, (history ops).stores.perform op = (.handle (.error e), (history ops).stores)) ∧
    (∀ op e, ((history ops).stores.perform op).1 = .handle (.error e) →
      ((history ops).stores.perform op).2 = (history ops).stores ∧
        (e = .exhausted → ∃ space, op.space = some space ∧ space.last ∈ (history ops).issued)) := by
  have hs := history_sound ops
  refine ⟨fun op id hok => ?_, hs.nodup, fun op id hid hdrops more => ?_,
    fun op space hop hlast => ?_, fun op e herr => ?_⟩
  · obtain ⟨space, hop⟩ := Stores.space_of_handle hok
    rcases hs.issuing_cases hop with ⟨e, heq, -⟩ | ⟨id', stores, heq, hholds, hnew, -⟩
    · rw [heq] at hok
      cases hok
    · rw [heq] at hok
      cases hok
      exact ⟨hnew, space, hop, hholds⟩
  · obtain ⟨space, hholds, hlt⟩ := hs.held _ hid
    obtain ⟨hstep, hlater⟩ := hs.perform op
    have hgone := Stores.get?_of_drops (s := (history ops).stores) hholds hdrops
    rw [history_append, Stores.retainAllocation_eq hholds]
    refine ((hstep.foldl more).2 space).none ?_ hgone
    exact Nat.lt_of_lt_of_le hlt (hlater space).counter
  · rcases hs.issuing_cases hop with ⟨e, heq, -⟩ | ⟨id, stores, heq, -, -, hmore⟩
    · exact ⟨e, heq⟩
    · exact absurd hlast hmore
  · obtain ⟨space, hop⟩ := Stores.space_of_handle herr
    rcases hs.issuing_cases hop with ⟨e', heq, hlast⟩ | ⟨id, stores, heq, -⟩
    · rw [heq] at herr ⊢
      cases herr
      exact ⟨rfl, fun hexhausted => ⟨space, hop, hlast hexhausted⟩⟩
    · rw [heq] at herr
      cases herr

end MessageHandles

end Connectanum
