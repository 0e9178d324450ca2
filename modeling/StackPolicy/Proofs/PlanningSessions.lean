import StackPolicy.Proofs.ChannelContents

/-!
# Sessions with a planner

A caller may go on after a request has failed, and may finish the plan in
between.  Neither leaves anything behind: a session ends with the planner that
the requests which have succeeded lead to alone.
-/

namespace StackPolicy

namespace ChannelPlanner

/-! ## Calls -/

/-- Finishing reads the plan off a planner, which may go on with further requests. -/
def Planning.finish : Planning ChannelPlan := do
  liftExcept (← get).finish

inductive Call where
  | ask (request : Request)
  | finish
  deriving DecidableEq, Repr

namespace Call

def request? : Call → Option Request
  | ask request => some request
  | finish => none

/-- The planner with which the next call starts, whether this one fails or not. -/
def leave (planner : ChannelPlanner) : Call → ChannelPlanner
  | ask request => (planner.after request.perform).2
  | finish => (planner.after Planning.finish).2

/-- The request that a call has carried out; none if it has failed. -/
def success? (planner : ChannelPlanner) : Call → Option Request
  | ask request =>
      match (planner.after request.perform).1 with
      | .ok () => some request
      | .error _ => none
  | finish => none

end Call

def session (planner : ChannelPlanner) (calls : List Call) : ChannelPlanner :=
  calls.foldl Call.leave planner

/-- The requests of a session that have not failed when it was their turn. -/
def succeeded (planner : ChannelPlanner) : List Call → List Request
  | [] => []
  | call :: calls => (call.success? planner).toList ++ (call.leave planner).succeeded calls

/-- Two planners with the same plan, the same types to transfer and the same trace. -/
structure Agrees (planner other : ChannelPlanner) : Prop where
  plan : ∃ plan, planner.after Planning.finish = (.ok plan, planner) ∧
    other.after Planning.finish = (.ok plan, other)
  transfer : planner.ledger.transfer = other.ledger.transfer
  trace : planner.ledger.trace = other.ledger.trace

/-! ## One call -/

theorem after_finish (planner : ChannelPlanner) :
    planner.after Planning.finish = (planner.finish, planner) := by
  unfold Planning.finish
  rw [after_get_bind]
  cases planner.finish <;> rfl

theorem Sound.agrees_self {planner : ChannelPlanner} (h : planner.Sound) :
    planner.Agrees planner where
  plan := by
    rw [after_finish, h.finish_eq_ok]
    exact ⟨planner.finished, rfl, rfl⟩
  transfer := rfl
  trace := rfl

theorem Call.success?_eq (planner : ChannelPlanner) (call : Call) :
    call.success? planner = call.request?.filter fun request =>
      request.message.receiver ∈ planner.app.softwareTasks.keys := by
  cases call with
  | finish => rfl
  | ask request =>
      by_cases declared : request.message.receiver ∈ planner.app.softwareTasks.keys
      · simp [success?, request?, Option.filter_some, declared,
          after_perform_of_declared declared]
      · simp [success?, request?, Option.filter_some, declared,
          after_perform_of_undeclared declared]

/-- A call leaves what it has carried out and nothing else: a request that fails has not
changed the planner, and neither does finishing. -/
theorem Call.leave_eq (planner : ChannelPlanner) (call : Call) :
    call.leave planner = (call.success? planner).toList.foldl attempt planner := by
  cases call with
  | finish => exact congrArg Prod.snd (after_finish planner)
  | ask request =>
      rw [success?_eq]
      by_cases declared : request.message.receiver ∈ planner.app.softwareTasks.keys
      · simp [leave, request?, Option.filter_some, declared, after_perform_of_declared declared]
      · simp [leave, request?, Option.filter_some, declared, after_perform_of_undeclared declared]

@[simp] theorem Call.app_leave (planner : ChannelPlanner) (call : Call) :
    (call.leave planner).app = planner.app := by
  rw [leave_eq]
  cases call.success? planner <;> simp

/-! ## Whole sessions -/

theorem session_eq_foldl_succeeded (planner : ChannelPlanner) (calls : List Call) :
    planner.session calls = (planner.succeeded calls).foldl attempt planner := by
  induction calls generalizing planner with
  | nil => rfl
  | cons call calls ih =>
      calc planner.session (call :: calls)
          = ((call.leave planner).succeeded calls).foldl attempt (call.leave planner) :=
            ih (call.leave planner)
        _ = (planner.succeeded (call :: calls)).foldl attempt planner := by
            rw [succeeded, List.foldl_append, ← Call.leave_eq]

theorem succeeded_eq_filter (planner : ChannelPlanner) (calls : List Call) :
    planner.succeeded calls = (calls.filterMap Call.request?).filter fun request =>
      request.message.receiver ∈ planner.app.softwareTasks.keys := by
  induction calls generalizing planner with
  | nil => rfl
  | cons call calls ih =>
      rw [succeeded, ih, Call.app_leave, Call.success?_eq]
      cases call with
      | finish => rfl
      | ask request =>
          by_cases declared : request.message.receiver ∈ planner.app.softwareTasks.keys <;>
            simp [Call.request?, Option.filter_some, declared]

theorem app_session (planner : ChannelPlanner) (calls : List Call) :
    (planner.session calls).app = planner.app :=
  foldl_keeps ChannelPlanner.app Call.app_leave calls planner

/-- At any point of a session a request fails if its receiver is not declared, and for no
other reason.  What can be seen of the planner is what the requests that have succeeded make
of it alone. -/
theorem session_agrees_succeeded (app : App) (ledger : Ledger) (calls : List Call) :
    let planner := (start app ledger).session calls
    (∀ request : Request,
      (request.message.receiver ∈ app.softwareTasks.keys →
        (planner.after request.perform).1 = .ok ()) ∧
      (request.message.receiver ∉ app.softwareTasks.keys →
        planner.after request.perform =
          (.error (.undeclaredTask request.message.receiver), planner))) ∧
    (start app ledger).succeeded calls = (calls.filterMap Call.request?).filter (fun request =>
      request.message.receiver ∈ app.softwareTasks.keys) ∧
    ∃ alone,
      (start app ledger).after (((start app ledger).succeeded calls).forM Request.perform) =
        (.ok (), alone) ∧
      planner.Agrees alone := by
  have happ : ((start app ledger).session calls).app = app :=
    app_session (start app ledger) calls
  have hsucceeded := succeeded_eq_filter (start app ledger) calls
  have hdeclared : ∀ request ∈ (start app ledger).succeeded calls,
      request.message.receiver ∈ (start app ledger).app.softwareTasks.keys := by
    intro request member
    rw [hsucceeded] at member
    simpa using (List.mem_filter.mp member).2
  have hsound := (sound_start app ledger).foldl_attempt ((start app ledger).succeeded calls)
  refine ⟨fun request => ⟨fun declared => ?_, fun absent => ?_⟩, hsucceeded, _,
    after_forM_of_declared hdeclared, ?_⟩
  · rw [← happ] at declared
    rw [after_perform_of_declared declared]
  · rw [← happ] at absent
    exact after_perform_of_undeclared absent
  · rw [session_eq_foldl_succeeded]
    exact hsound.agrees_self

/-- A message to a task that is not declared, between two looks at the plan. -/
example :
    let sender := Context.ofInit ⟨.exclusive 0 [] ["filter"] [], []⟩
    (start App.pipeline (.start true)).succeeded [.finish, .ask (.spawn ⟨sender, "decoder"⟩),
      .finish, .ask (.spawn ⟨sender, "filter"⟩)] = [.spawn ⟨sender, "filter"⟩] := by
  decide +kernel

end ChannelPlanner

end StackPolicy
