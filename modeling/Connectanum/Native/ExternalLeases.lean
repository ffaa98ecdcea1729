import Connectanum.Lib.Custody

/-!
# Native — ExternalLeases

Memory that a native producer lends out: `LeaseOwner` counts the loans and their bytes,
`ExternalLoan` queues the producer's callback when its last reference goes, and the thread that
registered the owner runs the callbacks (`dispatch`).

A step is what one thread does between two releases of the owner's mutex.  The callback runs outside
the mutex: it ends when `dispatch` holds the mutex again, and meanwhile it may call the owner.
-/

namespace Connectanum

namespace ExternalLeases

open Custody (Event Move Stages)

inductive LeaseError where
  | invalidArgument
  | wrongThread
  | closing
  | quotaExceeded
  | busy
  | reentrant
  | allocationFailed
  deriving DecidableEq, Repr

/-- `isize::MAX`. -/
def isizeMax : Nat := 9223372036854775807

def i32Max : Nat := 2147483647

/-- `usize::checked_add`. -/
def checkedAdd (a b : Nat) : Option Nat :=
  if a + b < 18446744073709551616 then some (a + b) else none

/-- Subtraction of `usize`, which wraps where it underflows. -/
def wrappingSub (a b : Nat) : Nat := if b ≤ a then a - b else a + 18446744073709551616 - b

structure LeaseLimits where
  bytes : Nat
  leases : Nat

/-- `serial` is not in the code: it tells which admission a release belongs to. -/
structure Release where
  callback : UInt64
  token : UInt64
  bytes : Nat
  serial : Nat
  deriving DecidableEq, Repr

structure State where
  bytes : Nat
  leases : Nat
  releases : List Release
  closing : Bool
  dispatching : Bool

def State.empty : State := ⟨0, 0, [], false, false⟩

structure LeaseOwner where
  thread : Nat
  limits : LeaseLimits
  positive : limits.leases ≠ 0
  representable : limits.leases ≤ i32Max

structure ExternalLoan where
  base : UInt64
  length : Nat
  release : Release
  deriving DecidableEq, Repr

/-! ### The owner -/

namespace LeaseOwner

/-- `reserved`: whether there was memory for the queue. -/
def new (thread : Nat) (limits : LeaseLimits) (reserved : Bool) :
    Except LeaseError (LeaseOwner × State) :=
  if h : limits.leases = 0 ∨ i32Max < limits.leases then .error .invalidArgument
  else if reserved then
    .ok (⟨thread, limits, fun h' => h (.inl h'), Nat.not_lt.mp fun h' => h (.inr h')⟩,
      .empty)
  else .error .allocationFailed

def admitLoan (owner : LeaseOwner) (state : State) (serial thread : Nat) (base : UInt64)
    (length : Nat) (callback token : UInt64) : Except LeaseError (State × ExternalLoan) :=
  if thread ≠ owner.thread then .error .wrongThread
  else if isizeMax < length ∨ (length ≠ 0 ∧ base = 0) ∨ checkedAdd base.toNat length = none then
    .error .invalidArgument
  else if state.closing then .error .closing
  else
    match (checkedAdd state.bytes length).filter (· ≤ owner.limits.bytes) with
    | none => .error .quotaExceeded
    | some bytes =>
        if state.leases = owner.limits.leases then .error .quotaExceeded
        else
          .ok ({ state with bytes, leases := state.leases + 1 },
            { base := if base = 0 then 1 else base
              length
              release := { callback, token, bytes := length, serial } })

def close (owner : LeaseOwner) (state : State) (thread : Nat) : Except LeaseError Unit × State :=
  if thread ≠ owner.thread then (.error .wrongThread, state)
  else
    let state := { state with closing := true }
    if state.leases ≠ 0 then (.error .busy, state) else (.ok (), state)

end LeaseOwner

/-! ### All that takes part -/

/-- A loan, and how many references to it there are. -/
structure Shared where
  loan : ExternalLoan
  references : Nat

/-- What the owner's thread is doing: nothing with the owner, waiting for a release, or dispatching:
about to take the next release, in a callback, or about to leave. -/
inductive Phase where
  | idle
  | waiting
  | dispatching (count maximum : Nat)
  | callback (release : Release) (count maximum : Nat)
  | leaving (count : Nat)

namespace Phase

/-- Whether the thread runs code that may call the owner. -/
def free : Phase → Bool
  | idle | callback .. => true
  | waiting | dispatching .. | leaving _ => false

/-- Whether there is a `DispatchGuard`. -/
def guarded : Phase → Bool
  | dispatching .. | callback .. | leaving _ => true
  | idle | waiting => false

def release? : Phase → Option Release
  | callback release _ _ => some release
  | idle | waiting | dispatching .. | leaving _ => none

end Phase

structure Sys where
  state : State
  loans : List Shared
  phase : Phase
  /-- All that has happened to the loans. -/
  log : List (Event Release)
  admissions : Nat

inductive Act where
  | admitLoan (thread : Nat) (base : UInt64) (length : Nat) (callback token : UInt64)
  | share (serial : Nat)
  | dropReference (serial : Nat)
  | close (thread : Nat)
  | wait (thread : Nat)
  | wake (timedOut : Bool)
  | dispatch (thread maximum : Nat)
  | next
  | callbackReturned
  | leave

inductive Answer where
  | admitted (result : Except LeaseError ExternalLoan)
  | closed (result : Except LeaseError Unit)
  | released (result : Except LeaseError Bool)
  | dispatched (result : Except LeaseError Nat)
  | silent

namespace Sys

variable (owner : LeaseOwner)

/-- The owner's thread cannot call the owner while the owner's own code is running on it. -/
def blocked (s : Sys) (thread : Nat) : Prop := thread = owner.thread ∧ s.phase.free = false

instance (s : Sys) (thread : Nat) : Decidable (s.blocked owner thread) :=
  inferInstanceAs (Decidable (_ ∧ _))

def admitLoan (s : Sys) (thread : Nat) (base : UInt64) (length : Nat) (callback token : UInt64) :
    Answer × Sys :=
  match owner.admitLoan s.state s.admissions thread base length callback token with
  | .error e => (.admitted (.error e), s)
  | .ok (state, loan) =>
      (.admitted (.ok loan),
        { s with
          state
          loans := s.loans ++ [⟨loan, 1⟩]
          log := s.log ++ [.taken loan.release]
          admissions := s.admissions + 1 })

/-- `Arc::clone`. -/
def share (s : Sys) (serial : Nat) : Sys :=
  { s with
    loans := s.loans.map fun l =>
      if l.loan.release.serial = serial then { l with references := l.references + 1 } else l }

/-- The last reference drops the loan, which queues its release. -/
def dropReference (s : Sys) (serial : Nat) : Sys :=
  match s.loans.find? (·.loan.release.serial = serial) with
  | none => s
  | some l =>
      if 1 < l.references then
        { s with
          loans := s.loans.map fun l =>
            if l.loan.release.serial = serial then { l with references := l.references - 1 }
            else l }
      else
        { s with
          state := { s.state with releases := s.state.releases ++ [l.loan.release] }
          loans := s.loans.eraseP (·.loan.release.serial = serial)
          log := s.log ++ [.returned l.loan.release] }

def wait (s : Sys) (thread : Nat) : Answer × Sys :=
  if thread ≠ owner.thread then (.released (.error .wrongThread), s)
  else if s.state.dispatching then (.released (.error .reentrant), s)
  else (.silent, { s with phase := .waiting })

def dispatch (s : Sys) (thread maximum : Nat) : Answer × Sys :=
  if thread ≠ owner.thread then (.dispatched (.error .wrongThread), s)
  else if s.state.dispatching then (.dispatched (.error .reentrant), s)
  else
    (.silent,
      { s with
        state := { s.state with dispatching := true }
        phase := .dispatching 0 maximum })

/-- The head of the loop of `dispatch`. -/
def next (s : Sys) (count maximum : Nat) : Sys :=
  if count < maximum then
    match s.state.releases with
    | [] => { s with phase := .leaving count }
    | release :: releases =>
        { s with
          state := { s.state with releases }
          phase := .callback release count maximum
          log := s.log ++ [.started release] }
  else { s with phase := .leaving count }

def callbackReturned (s : Sys) (release : Release) (count maximum : Nat) : Sys :=
  { s with
    state :=
      { s.state with
        bytes := wrappingSub s.state.bytes release.bytes
        leases := wrappingSub s.state.leases 1 }
    phase := .dispatching (count + 1) maximum
    log := s.log ++ [.finished release] }

/-- One step, where it can be taken. -/
def step (s : Sys) : Act → Option (Answer × Sys)
  | .admitLoan thread base length callback token =>
      if s.blocked owner thread then none
      else some (s.admitLoan owner thread base length callback token)
  | .share serial => some (.silent, s.share serial)
  | .dropReference serial => some (.silent, s.dropReference serial)
  | .close thread =>
      if s.blocked owner thread then none
      else
        let (result, state) := owner.close s.state thread
        some (.closed result, { s with state })
  | .wait thread => if s.blocked owner thread then none else some (s.wait owner thread)
  | .wake timedOut =>
      match s.phase with
      | .waiting =>
          if timedOut ∨ ¬ (s.state.releases.isEmpty ∧ s.state.leases ≠ 0) then
            some (.released (.ok !s.state.releases.isEmpty), { s with phase := .idle })
          else none
      | _ => none
  | .dispatch thread maximum =>
      if s.blocked owner thread then none else some (s.dispatch owner thread maximum)
  | .next =>
      match s.phase with
      | .dispatching count maximum => some (.silent, s.next count maximum)
      | _ => none
  | .callbackReturned =>
      match s.phase with
      | .callback release count maximum => some (.silent, s.callbackReturned release count maximum)
      | _ => none
  | .leave =>
      match s.phase with
      | .leaving count =>
          some (.dispatched (.ok count),
            { s with state := { s.state with dispatching := false }, phase := .idle })
      | _ => none

/-! ### Where the loans are -/

/-- The loans in the hands of users, those queued for release, and the one in its callback. -/
def stages (s : Sys) : Stages Release where
  held := s.loans.map (·.loan.release)
  queued := s.state.releases
  running := s.phase.release?

/-- What a step can do: nothing to the loans, or one move of one of them. -/
inductive Advance (owner : LeaseOwner) (s s' : Sys) : Prop where
  | quiet (stages : s'.stages = s.stages) (log : s'.log = s.log)
      (bytes : s'.state.bytes = s.state.bytes) (leases : s'.state.leases = s.state.leases)
      (admissions : s'.admissions = s.admissions)
  | admitted (release : Release) (move : Move s.stages (.taken release) s'.stages)
      (log : s'.log = s.log ++ [.taken release])
      (bytes : s'.state.bytes = s.state.bytes + release.bytes)
      (leases : s'.state.leases = s.state.leases + 1)
      (room : s.state.leases ≠ owner.limits.leases)
      (serial : release.serial = s.admissions) (admissions : s'.admissions = s.admissions + 1)
  | dropped (release : Release) (move : Move s.stages (.returned release) s'.stages)
      (log : s'.log = s.log ++ [.returned release])
      (bytes : s'.state.bytes = s.state.bytes) (leases : s'.state.leases = s.state.leases)
      (admissions : s'.admissions = s.admissions)
  | called (release : Release) (move : Move s.stages (.started release) s'.stages)
      (log : s'.log = s.log ++ [.started release])
      (bytes : s'.state.bytes = s.state.bytes) (leases : s'.state.leases = s.state.leases)
      (admissions : s'.admissions = s.admissions)
  | completed (release : Release) (move : Move s.stages (.finished release) s'.stages)
      (log : s'.log = s.log ++ [.finished release])
      (bytes : s'.state.bytes = wrappingSub s.state.bytes release.bytes)
      (leases : s'.state.leases = wrappingSub s.state.leases 1)
      (admissions : s'.admissions = s.admissions)

variable {owner : LeaseOwner} {s s' : Sys} {answer : Answer} {act : Act}

theorem checkedAdd_eq_some {a b c : Nat} (h : checkedAdd a b = some c) : c = a + b := by
  simp only [checkedAdd] at h
  split at h
  · exact (Option.some.inj h).symm
  · cases h

/-- An admission that succeeds: the quota had room for it, and is charged. -/
theorem admission_eq_ok {state state' : State} {serial thread length : Nat}
    {base callback token : UInt64}
    {loan : ExternalLoan}
    (h : owner.admitLoan state serial thread base length callback token = .ok (state', loan)) :
    state' = { state with
        bytes := state.bytes + loan.release.bytes, leases := state.leases + 1 } ∧
      loan.release.serial = serial ∧ state.leases ≠ owner.limits.leases ∧
      state.bytes + loan.release.bytes ≤ owner.limits.bytes := by
  simp only [LeaseOwner.admitLoan] at h
  split at h
  · cases h
  split at h
  · cases h
  split at h
  · cases h
  split at h
  · cases h
  next bytes hbytes =>
  split at h
  · cases h
  next hroom =>
  obtain ⟨hadd, hlimit⟩ := Option.filter_eq_some_iff.mp hbytes
  obtain rfl := checkedAdd_eq_some hadd
  cases h
  exact ⟨rfl, rfl, hroom, of_decide_eq_true hlimit⟩

theorem close_eq_ok {state : State} {thread : Nat} (h : (owner.close state thread).1 = .ok ()) :
    state.leases = 0 := by
  simp only [LeaseOwner.close] at h
  split at h
  · cases h
  split at h
  · cases h
  · next hleases => exact not_not.mp hleases

theorem map_release_map {f : Shared → Shared} (hf : ∀ l, (f l).loan = l.loan)
    (loans : List Shared) :
    (loans.map f).map (·.loan.release) = loans.map (·.loan.release) := by
  rw [List.map_map]
  refine List.map_congr_left fun l _ => ?_
  rw [Function.comp_apply, hf]

theorem advance_dropReference (serial : Nat) : Advance owner s (s.dropReference serial) := by
  unfold dropReference
  cases hfind : s.loans.find? (·.loan.release.serial = serial) with
  | none => exact .quiet rfl rfl rfl rfl rfl
  | some l =>
      dsimp only
      split
      · refine .quiet ?_ rfl rfl rfl rfl
        simp only [stages]
        rw [map_release_map fun l => ?_]
        split <;> rfl
      · obtain ⟨hserial, front, back, hloans, hfront⟩ := List.find?_eq_some_iff_append.mp hfind
        have hself : (l :: back).eraseP (·.loan.release.serial = serial) = back :=
          List.eraseP_cons_of_pos hserial
        have herase : s.loans.eraseP (·.loan.release.serial = serial) = front ++ back := by
          rw [hloans, List.eraseP_append_right _ fun b hb => by simpa using hfront b hb, hself]
        refine .dropped l.loan.release ?_ rfl rfl rfl rfl
        simp only [stages, hloans, List.map_append, List.map_cons] at herase ⊢
        rw [herase, List.map_append]
        exact Move.giveBack _ _ _ _ _

theorem advance_admission (thread : Nat) (base : UInt64) (length : Nat) (callback token : UInt64) :
    Advance owner s (s.admitLoan owner thread base length callback token).2 := by
  unfold admitLoan
  cases hadmission : owner.admitLoan s.state s.admissions thread base length callback token with
  | error e => exact .quiet rfl rfl rfl rfl rfl
  | ok admitted =>
      obtain ⟨state, loan⟩ := admitted
      obtain ⟨rfl, hserial, hroom, -⟩ := admission_eq_ok hadmission
      refine .admitted loan.release ?_ rfl rfl rfl hroom hserial rfl
      simp only [stages, List.map_append, List.map_cons, List.map_nil]
      exact Move.take _ _ _ _

theorem advance_close (thread : Nat) :
    Advance owner s { s with state := (owner.close s.state thread).2 } := by
  unfold LeaseOwner.close
  split
  · exact .quiet rfl rfl rfl rfl rfl
  · dsimp only
    split <;> exact .quiet rfl rfl rfl rfl rfl

theorem advance_next {count maximum : Nat} (hphase : s.phase = .dispatching count maximum) :
    Advance owner s (s.next count maximum) := by
  have hleaving : Advance owner s { s with phase := .leaving count } :=
    .quiet (by simp only [stages, hphase, Phase.release?]) rfl rfl rfl rfl
  unfold next
  split
  · cases hreleases : s.state.releases with
    | nil => exact hleaving
    | cons release releases =>
        refine .called release ?_ rfl rfl rfl rfl
        simp only [stages, hphase, hreleases, Phase.release?]
        exact Move.start _ _ _
  · exact hleaving

theorem advance_callbackReturned {release : Release} {count maximum : Nat}
    (hphase : s.phase = .callback release count maximum) :
    Advance owner s (s.callbackReturned release count maximum) := by
  refine .completed release ?_ rfl rfl rfl rfl
  simp only [stages, callbackReturned, hphase, Phase.release?]
  exact Move.finish _ _ _

/-- The guard is there while the owner dispatches. -/
def Guarded (s : Sys) : Prop := s.state.dispatching = s.phase.guarded

/-- A thread that may call the owner, outside of `dispatch`, is idle. -/
theorem Guarded.idle (h : s.Guarded) (hfree : s.phase.free = true)
    (hdispatching : ¬ s.state.dispatching = true) : s.phase = .idle := by
  rw [h] at hdispatching
  cases hphase : s.phase with
  | idle => rfl
  | waiting | dispatching _ _ | leaving _ =>
      rw [hphase] at hfree
      cases hfree
  | callback release count maximum =>
      rw [hphase] at hdispatching
      exact absurd rfl hdispatching

theorem free_of_not_blocked {thread : Nat} (h : ¬ s.blocked owner thread)
    (hthread : thread = owner.thread) : s.phase.free = true := by
  cases hfree : s.phase.free with
  | true => rfl
  | false => exact absurd ⟨hthread, hfree⟩ h

/-- **Every step is an advance**, and keeps the guard. -/
theorem step_advance (h : s.Guarded) (hstep : s.step owner act = some (answer, s')) :
    Advance owner s s' ∧ s'.Guarded := by
  cases act with
  | admitLoan thread base length callback token =>
      simp only [step] at hstep
      split at hstep
      · cases hstep
      · obtain rfl := congrArg Prod.snd (Option.some.inj hstep)
        refine ⟨advance_admission .., ?_⟩
        unfold admitLoan
        split
        · exact h
        · next state loan hadmission =>
          obtain ⟨rfl, -⟩ := admission_eq_ok hadmission
          exact h
  | share serial =>
      cases hstep
      refine ⟨.quiet ?_ rfl rfl rfl rfl, h⟩
      simp only [stages, share]
      rw [map_release_map fun l => ?_]
      split <;> rfl
  | dropReference serial =>
      cases hstep
      refine ⟨advance_dropReference serial, ?_⟩
      unfold dropReference
      split
      · exact h
      · split <;> exact h
  | close thread =>
      simp only [step] at hstep
      split at hstep
      · cases hstep
      · obtain rfl := congrArg Prod.snd (Option.some.inj hstep)
        refine ⟨advance_close thread, ?_⟩
        unfold LeaseOwner.close
        split
        · exact h
        · dsimp only
          split <;> exact h
  | wait thread =>
      simp only [step] at hstep
      split at hstep
      · cases hstep
      next hblocked =>
      obtain rfl := congrArg Prod.snd (Option.some.inj hstep)
      unfold wait
      split
      · exact ⟨.quiet rfl rfl rfl rfl rfl, h⟩
      next hthread =>
      split
      · exact ⟨.quiet rfl rfl rfl rfl rfl, h⟩
      next hdispatching =>
      have hidle := h.idle (free_of_not_blocked hblocked (not_not.mp hthread)) hdispatching
      refine ⟨.quiet (by simp only [stages, hidle, Phase.release?]) rfl rfl rfl rfl, ?_⟩
      exact Bool.eq_false_iff.mpr hdispatching
  | wake timedOut =>
      simp only [step] at hstep
      split at hstep
      · next hphase =>
        split at hstep
        · obtain rfl := congrArg Prod.snd (Option.some.inj hstep)
          refine ⟨.quiet (by simp only [stages, hphase, Phase.release?]) rfl rfl rfl rfl, ?_⟩
          rw [Guarded, hphase] at h
          exact h
        · cases hstep
      · cases hstep
  | dispatch thread maximum =>
      simp only [step] at hstep
      split at hstep
      · cases hstep
      next hblocked =>
      obtain rfl := congrArg Prod.snd (Option.some.inj hstep)
      unfold dispatch
      split
      · exact ⟨.quiet rfl rfl rfl rfl rfl, h⟩
      next hthread =>
      split
      · exact ⟨.quiet rfl rfl rfl rfl rfl, h⟩
      next hdispatching =>
      have hidle := h.idle (free_of_not_blocked hblocked (not_not.mp hthread)) hdispatching
      exact ⟨.quiet (by simp only [stages, hidle, Phase.release?]) rfl rfl rfl rfl, rfl⟩
  | next =>
      simp only [step] at hstep
      split at hstep
      · next count maximum hphase =>
        obtain rfl := congrArg Prod.snd (Option.some.inj hstep)
        refine ⟨advance_next hphase, ?_⟩
        rw [Guarded, hphase] at h
        unfold next
        split
        · split <;> exact h
        · exact h
      · cases hstep
  | callbackReturned =>
      simp only [step] at hstep
      split at hstep
      · next release count maximum hphase =>
        obtain rfl := congrArg Prod.snd (Option.some.inj hstep)
        rw [Guarded, hphase] at h
        exact ⟨advance_callbackReturned hphase, h⟩
      · cases hstep
  | leave =>
      simp only [step] at hstep
      split at hstep
      · next count hphase =>
        obtain rfl := congrArg Prod.snd (Option.some.inj hstep)
        exact ⟨.quiet (by simp only [stages, hphase, Phase.release?]) rfl rfl rfl rfl, rfl⟩
      · cases hstep

/-! ### Runs -/

theorem wrappingSub_of_le {a b : Nat} (h : b ≤ a) : wrappingSub a b = a - b := if_pos h

/-- What holds between any two steps. -/
structure Sound (owner : LeaseOwner) (s : Sys) : Prop where
  bytes : s.state.bytes = s.stages.total Release.bytes
  leases : s.state.leases = s.stages.total fun _ => 1
  room : s.state.leases ≤ owner.limits.leases
  guarded : s.Guarded
  record : Custody.Sound s.stages s.log
  fresh : ∀ release, .taken release ∈ s.log → release.serial < s.admissions

/-- No admission is numbered by what happens to another. -/
theorem Sound.fresh_snoc (h : s.Sound owner) {e : Event Release}
    (he : ∀ release, e ≠ .taken release) :
    ∀ release, .taken release ∈ s.log ++ [e] → release.serial < s.admissions := by
  intro release hrelease
  rcases List.mem_append.mp hrelease with hold | hnew
  · exact h.fresh release hold
  · exact absurd (List.mem_singleton.mp hnew).symm (he release)

/-- A release in its callback is charged. -/
theorem Sound.charged (h : s.Sound owner) {release : Release}
    (hrelease : release ∈ s.stages.outstanding) :
    release.bytes ≤ s.state.bytes ∧ 1 ≤ s.state.leases := by
  rw [h.bytes, h.leases]
  exact ⟨Stages.le_total Release.bytes hrelease, Stages.le_total (fun _ => 1) hrelease⟩

theorem Sound.advance (h : s.Sound owner) (hadvance : Advance owner s s') (hguarded : s'.Guarded) :
    s'.Sound owner := by
  cases hadvance with
  | quiet hstages hlog hbytes hleases hadmissions =>
      refine ⟨?_, ?_, ?_, hguarded, ?_, ?_⟩
      · rw [hbytes, hstages]
        exact h.bytes
      · rw [hleases, hstages]
        exact h.leases
      · rw [hleases]
        exact h.room
      · rw [hstages, hlog]
        exact h.record
      · rw [hlog, hadmissions]
        exact h.fresh
  | admitted release hmove hlog hbytes hleases hroom hserial hadmissions =>
      have hnew : .taken release ∉ s.log := fun hold =>
        Nat.ne_of_lt (h.fresh release hold) hserial
      refine ⟨?_, ?_, ?_, hguarded, ?_, ?_⟩
      · rw [hbytes, hmove.total_taken, h.bytes]
      · rw [hleases, hmove.total_taken, h.leases]
      · rw [hleases]
        exact Nat.lt_of_le_of_ne h.room hroom
      · rw [hlog]
        exact h.record.move hmove fun _ _ => hnew
      · rw [hlog, hadmissions]
        intro release' hrelease'
        rcases List.mem_append.mp hrelease' with hold | hself
        · exact Nat.lt_succ_of_lt (h.fresh release' hold)
        · cases List.mem_singleton.mp hself
          exact Nat.lt_succ_of_le (Nat.le_of_eq hserial)
  | dropped release hmove hlog hbytes hleases hadmissions =>
      refine ⟨?_, ?_, ?_, hguarded, ?_, ?_⟩
      · rw [hbytes, hmove.total_returned, h.bytes]
      · rw [hleases, hmove.total_returned, h.leases]
      · rw [hleases]
        exact h.room
      · rw [hlog]
        exact h.record.move hmove nofun
      · rw [hlog, hadmissions]
        exact h.fresh_snoc nofun
  | called release hmove hlog hbytes hleases hadmissions =>
      refine ⟨?_, ?_, ?_, hguarded, ?_, ?_⟩
      · rw [hbytes, hmove.total_started, h.bytes]
      · rw [hleases, hmove.total_started, h.leases]
      · rw [hleases]
        exact h.room
      · rw [hlog]
        exact h.record.move hmove nofun
      · rw [hlog, hadmissions]
        exact h.fresh_snoc nofun
  | completed release hmove hlog hbytes hleases hadmissions =>
      -- What the callback has released was still charged, so nothing underflows.
      obtain ⟨hcharged, hpositive⟩ :=
        h.charged (hmove.outstanding_finished.mem_iff.mp List.mem_cons_self)
      have htotal := hmove.total_finished Release.bytes
      have hcount := hmove.total_finished fun _ => 1
      refine ⟨?_, ?_, ?_, hguarded, ?_, ?_⟩
      · rw [hbytes, wrappingSub_of_le hcharged, h.bytes, ← htotal, Nat.add_sub_cancel]
      · rw [hleases, wrappingSub_of_le hpositive, h.leases, ← hcount, Nat.add_sub_cancel]
      · rw [hleases, wrappingSub_of_le hpositive]
        exact Nat.le_trans (Nat.sub_le _ _) h.room
      · rw [hlog]
        exact h.record.move hmove nofun
      · rw [hlog, hadmissions]
        exact h.fresh_snoc nofun

/-- Taking no step where it cannot be taken. -/
def perform (owner : LeaseOwner) (s : Sys) (act : Act) : Answer × Sys :=
  (s.step owner act).getD (.silent, s)

theorem Sound.perform (h : s.Sound owner) (act : Act) : (s.perform owner act).2.Sound owner := by
  rw [Sys.perform]
  cases hstep : s.step owner act with
  | none => exact h
  | some result =>
      obtain ⟨answer, s'⟩ := result
      obtain ⟨hadvance, hguarded⟩ := step_advance h.guarded hstep
      exact h.advance hadvance hguarded

end Sys

def start : Sys := ⟨.empty, [], .idle, [], 0⟩

/-- The acts of all threads, in the order in which they get the mutex. -/
def run (owner : LeaseOwner) (acts : List Act) : Sys :=
  acts.foldl (fun s act => (s.perform owner act).2) start

theorem sound_start (owner : LeaseOwner) : start.Sound owner where
  bytes := rfl
  leases := rfl
  room := Nat.zero_le _
  guarded := rfl
  record := .empty
  fresh := nofun

theorem sound_run (owner : LeaseOwner) (acts : List Act) : (run owner acts).Sound owner := by
  suffices h : ∀ s : Sys, s.Sound owner →
      (acts.foldl (fun s act => (s.perform owner act).2) s).Sound owner from
    h start (sound_start owner)
  induction acts with
  | nil => exact fun s hs => hs
  | cons act acts ih => exact fun s hs => ih _ (hs.perform act)

/-- **The accounting of external leases.** -/
theorem lease_accounting (owner : LeaseOwner) (acts : List Act) :
    (run owner acts).state.bytes = (run owner acts).stages.total Release.bytes ∧
    (run owner acts).state.leases = (run owner acts).stages.outstanding.length ∧
    (run owner acts).state.releases.length ≤ owner.limits.leases ∧
    -- No subtraction underflows.
    (∀ release count maximum, (run owner acts).phase = .callback release count maximum →
      release.bytes ≤ (run owner acts).state.bytes ∧ 1 ≤ (run owner acts).state.leases) ∧
    -- A callback runs once, after the last reference was dropped.
    (∀ front release back, (run owner acts).log = front ++ .started release :: back →
      .returned release ∈ front ∧ .started release ∉ front) ∧
    -- A rejected admission changes nothing.
    (∀ thread base length callback token e,
      ((run owner acts).perform owner (.admitLoan thread base length callback token)).1 =
        .admitted (.error e) →
      ((run owner acts).perform owner (.admitLoan thread base length callback token)).2 =
        run owner acts) ∧
    -- Where `close` succeeds, every callback has completed.
    (∀ thread, ((run owner acts).perform owner (.close thread)).1 = .closed (.ok ()) →
      ∀ release, .taken release ∈ (run owner acts).log →
        .finished release ∈ (run owner acts).log) := by
  have hs := sound_run owner acts
  generalize run owner acts = s at hs
  refine ⟨hs.bytes, hs.leases.trans s.stages.total_one, ?_, ?_, hs.record.ordered, ?_, ?_⟩
  · refine Nat.le_trans ?_ hs.room
    rw [hs.leases, Stages.total_one, Stages.outstanding, List.length_append, List.length_append]
    exact Nat.le_trans (Nat.le_add_left _ _) (Nat.le_add_right _ _)
  · intro release count maximum hphase
    refine hs.charged (List.mem_append_right _ ?_)
    rw [Sys.stages, hphase]
    exact List.mem_singleton.mpr rfl
  · intro thread base length callback token e herror
    simp only [Sys.perform, Sys.step] at herror ⊢
    split
    · rfl
    · next hblocked =>
      rw [if_neg hblocked, Option.getD_some, Sys.admitLoan] at herror
      rw [Option.getD_some, Sys.admitLoan]
      split
      · rfl
      · next hadmission =>
        rw [hadmission] at herror
        cases herror
  · intro thread hclosed release hrelease
    refine hs.record.finished (List.eq_nil_of_length_eq_zero ?_) hrelease
    rw [← Stages.total_one, ← hs.leases]
    simp only [Sys.perform, Sys.step] at hclosed
    split at hclosed
    · cases hclosed
    · exact Sys.close_eq_ok (Answer.closed.inj hclosed)

/-- A shared loan in its callback, which calls the owner: its bytes are still charged. -/
example : (run ⟨7, ⟨4, 1⟩, by decide, by decide⟩
    [.admitLoan 7 64 4 1 2, .share 0, .dropReference 0,
    .dropReference 0, .dispatch 7 9, .next, .dispatch 7 1, .close 7]).state.bytes = 4 := by
  decide

end ExternalLeases

end Connectanum
