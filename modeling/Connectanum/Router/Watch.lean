import Connectanum.Router.Steps
import Mathlib.Logic.Function.Basic

/-!
# Router — Watch

A monitor over the handlers in progress: each has a ghost state that it keeps to, and one lemma
for each kind of step says how the ghost state moves.
-/

namespace Connectanum

open Collections Machine

namespace Router

variable {τ : Type} {m : Monitor Post Query Query.Answer τ} {st : Router} {g : SendPort → τ}

/-- Every handler in progress keeps to its ghost state. -/
def Watched (m : Monitor Post Query Query.Answer τ) (st : Router) (g : SendPort → τ) : Prop :=
  ∀ p task, st.tasks.get? p = some task → m.Obeys (g p) task.script

/-- A handler that has ended did so in a final ghost state. -/
theorem final_of_stop {x : τ} {c : Nat} {script : Handler} (h : m.Obeys x script)
    (hstop : Task.stop c script = none) : m.final x := by
  cases script with
  | done => exact h
  | send p rest => cases hstop
  | ask q next => cases q <;> cases hstop

namespace Watched

theorem congr (h : Watched m st g) {st' : Router} (ht : st'.tasks = st.tasks) :
    Watched m st' g := by
  intro p task hp
  rw [ht] at hp
  exact h p task hp

/-- The handler at one port goes on otherwise. -/
theorem setTask (h : Watched m st g) (port : SendPort) {t : Option Task} {x : τ}
    (hx : ∀ task, t = some task → m.Obeys x task.script) :
    Watched m (st.setTask port t) (Function.update g port x) := by
  intro p task hp
  rw [setTask_get?] at hp
  by_cases heq : p = port
  · subst heq
    rw [if_pos rfl] at hp
    rw [Function.update_self]
    exact hx task hp
  · rw [if_neg heq] at hp
    rw [Function.update_of_ne heq]
    exact h p task hp

/-- A segment: the ghost state moves along the posts, to a final one where the handler ends.  The
ghost state of a handler that has ended does not matter. -/
theorem resume (h : Watched m st g) {port : SendPort} {c : Nat} {script : Handler}
    (ht : st.tasks.get? port = some ⟨c, .ready, script⟩) {view : View}
    (hnow : ∀ q ∈ script.met view.now, ∀ a, view.now q = some a →
      ∀ t, m.admits t q a ∧ m.answer t q a = t) (posts : List Post) :
    ∃ x, m.passes (g port) (script.sent view.now) = some x ∧
      (Task.stop c (script.remainder view.now) = none → m.final x) ∧
      ∀ y, (Task.stop c (script.remainder view.now) ≠ none → y = x) →
        Watched m ((st.post posts).setTask port (Task.stop c (script.remainder view.now)))
          (Function.update g port y) := by
  obtain ⟨x, hx, hobeys⟩ := (h port _ ht).segment _ hnow
  refine ⟨x, hx, final_of_stop hobeys, fun y hy => ?_⟩
  have hpost : Watched m (st.post posts) g := h.congr rfl
  refine hpost.setTask port fun task hstop => ?_
  rw [(Task.stop_script hstop).1, hy (by rw [hstop]; nofun)]
  exact hobeys

/-- An answer that is not one of the store. -/
theorem answer (h : Watched m st g) {port : SendPort} {c : Nat} {stage : Stage} {q : Query}
    {next : q.Answer → Handler} (ht : st.tasks.get? port = some ⟨c, stage, .ask q next⟩)
    {a : q.Answer} (hadm : m.admits (g port) q a) (stage' : Stage) :
    Watched m (st.setTask port (some ⟨c, stage', next a⟩))
      (Function.update g port (m.answer (g port) q a)) := by
  refine h.setTask port fun task hs => ?_
  cases hs
  exact h port _ ht a hadm

/-- A command that is answered on the spot. -/
theorem execute (h : Watched m st g) (ho : Settled st) {port : SendPort} {c : Nat} {point : Point}
    {u : String} {request : RealmRequest} {next : StoreReply → Handler} (env : StoreEnv)
    (ht : st.tasks.get? port = some ⟨c, .queued, .ask (.store point u request) next⟩)
    (hd : request.isDispatch = false)
    (hadm : ∀ r, (st.store.handle env (.command (request.command u port))).replies = [(port, r)] →
      m.admits (g port) (.store point u request) r) :
    ∃ r, (st.store.handle env (.command (request.command u port))).replies = [(port, r)] ∧
      Watched m (st.execute port env)
        (Function.update g port (m.answer (g port) (.store point u request) r)) := by
  obtain ⟨r, hr, htasks⟩ := execute_answered ho env ht hd
  refine ⟨r, hr, fun p task hp => ?_⟩
  rw [htasks p] at hp
  by_cases heq : p = port
  · subst heq
    rw [if_pos rfl] at hp
    cases hp
    rw [Function.update_self]
    exact h p _ ht r (hadm r hr)
  · rw [if_neg heq] at hp
    rw [Function.update_of_ne heq]
    exact h p task hp

/-- Answers to dispatches, which move nothing. -/
theorem absorb (h : Watched m st g) (ho : ∀ p c point u request next,
      st.tasks.get? p = some ⟨c, .waiting, .ask (.store point u request) next⟩ →
      request.isDispatch = true) (s : RouterStateStore)
    (hans : ∀ p c point u request next r,
      st.tasks.get? p = some ⟨c, .waiting, .ask (.store point u request) next⟩ →
      request.isDispatch = true → (p, r) ∈ s.replies →
      m.admits (g p) (.store point u request) r ∧
        m.answer (g p) (.store point u request) r = g p) :
    Watched m (st.absorb s) g := by
  intro p task hp
  have ha := answered_absorb st s p
  rw [hp] at ha
  generalize hb : st.tasks.get? p = before at ha
  cases ha with
  | same => exact h p task hb
  | delivered mem =>
      obtain ⟨hadm, heq⟩ := hans p _ _ _ _ _ _ hb (ho p _ _ _ _ _ hb) mem
      rw [← heq]
      exact h p _ hb _ hadm

end Watched

end Router

end Connectanum
