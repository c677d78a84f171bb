import Mathlib.Data.List.Nodup
import Mathlib.Data.List.Perm.Basic
import Mathlib.Data.List.Range
import Restitch.Hotreload.Poller

/-!
# Step caches over reloads (`cmd/restitch/run.go`, `cmd/restitch/pipeline.go`)

Every executor has a step cache with a janitor of its own. A reload builds two
executors, one for the pipeline and one inside its handler; the delayed close of
a replaced pipeline closes one of them.
-/

namespace Restitch.Gateway

open Restitch.Semantics Restitch.Hotreload

variable {Digest : Type}

/-- A `StepCache`, named by the order in which they are made. -/
abbrev CacheId := Nat

/-- The step caches of the process: how many were made, and every call of
`StepCache.Close`. -/
structure Caches where
  made : Nat
  closed : List CacheId

/-- The janitor of a cache runs from `NewStepCache` until the cache is closed. -/
def Caches.Running (caches : Caches) (cache : CacheId) : Prop :=
  cache < caches.made ∧ cache ∉ caches.closed

instance (caches : Caches) (cache : CacheId) : Decidable (caches.Running cache) :=
  inferInstanceAs (Decidable (_ ∧ _))

/-- `NewStepCache`. -/
def newStepCache (caches : Caches) : CacheId × Caches :=
  (caches.made, { caches with made := caches.made + 1 })

/-- `StepCache.Close`. -/
def Caches.close (caches : Caches) (cache : CacheId) : Caches :=
  { caches with closed := caches.closed ++ [cache] }

structure Executor where
  cache : CacheId
deriving DecidableEq

/-- `NewExecutor`. -/
def newExecutor (caches : Caches) : Executor × Caches :=
  let (cache, caches) := newStepCache caches
  (⟨cache⟩, caches)

/-- `Executor.Close`. -/
def Executor.close (executor : Executor) (caches : Caches) : Caches :=
  caches.close executor.cache

structure Handler where
  executor : Executor
deriving DecidableEq

/-- `NewHandler`. -/
def newHandler (caches : Caches) : Handler × Caches :=
  let (executor, caches) := newExecutor caches
  (⟨executor⟩, caches)

/-- A `Pipeline`. The first one serves the probes only and has no executor. -/
structure ServingPipeline (Digest : Type) extends Pipeline Digest where
  executor : Option Executor
  handler : Option Handler
deriving DecidableEq

def probes : ServingPipeline Digest := ⟨probePipeline, none, none⟩

/-- `Pipeline.Close`. -/
def ServingPipeline.close (pipeline : ServingPipeline Digest) (caches : Caches) : Caches :=
  match pipeline.executor with
  | some executor => executor.close caches
  | none => caches

/-- The caches that the executors of a pipeline use. -/
def ServingPipeline.caches (pipeline : ServingPipeline Digest) : List CacheId :=
  pipeline.executor.toList.map (·.cache) ++ pipeline.handler.toList.map (·.executor.cache)

/-- The gateway process. `replaced` and `requests` record what happened and are
read by no transition. -/
structure Process (Digest : Type) where
  caches : Caches
  /-- The pipeline of the `Swapper`. -/
  current : ServingPipeline Digest
  /-- The pipelines whose delayed close has not run yet. -/
  closing : List (ServingPipeline Digest)
  /-- Every pipeline that was replaced, oldest first. -/
  replaced : List (ServingPipeline Digest)
  /-- The pipelines that the requests in flight were dispatched to. -/
  requests : List (ServingPipeline Digest)

def start : Process Digest := ⟨⟨0, []⟩, probes, [], [], []⟩

/-- Swap a pipeline in and start the timer of the one it replaces. -/
def Process.swap (gateway : Process Digest) (pipeline : ServingPipeline Digest) (caches : Caches) :
    Process Digest :=
  { gateway with
    caches
    current := pipeline
    closing := gateway.closing ++ [gateway.current]
    replaced := gateway.replaced ++ [gateway.current] }

/-- `reloadFromBytes`, with the executors it makes. A registration that panics ends
the process and is no reload. -/
def Process.reloadFromBytes [DecidableEq Digest] (sha256 : String → Digest) (gateway : Process Digest)
    (rawYAML : String) : ReloadOutcome → Except PollError (Process Digest)
  | .loadFails => .error .reload
  | outcome =>
      if gateway.current.hash = some (sha256 rawYAML) then .ok gateway
      else
        match outcome with
        | .builds =>
            let (executor, caches) := newExecutor gateway.caches
            let (handler, caches) := newHandler caches
            .ok (gateway.swap
              ⟨⟨some (sha256 rawYAML), some rawYAML⟩, some executor, some handler⟩ caches)
        | _ => .error .reload

/-- The pipelines are those of the poller's model. -/
theorem reloadFromBytes_current [DecidableEq Digest] (sha256 : String → Digest) (gateway : Process Digest)
    (rawYAML : String) (outcome : ReloadOutcome) :
    (gateway.reloadFromBytes sha256 rawYAML outcome).map (·.current.toPipeline) =
      Hotreload.reloadFromBytes sha256 gateway.current.toPipeline rawYAML outcome := by
  cases outcome with
  | loadFails => rfl
  | buildFails | builds =>
      simp only [Process.reloadFromBytes, Hotreload.reloadFromBytes]
      split <;> rfl

inductive Event where
  | reload (rawYAML : String) (outcome : ReloadOutcome)
  /-- The timer of a replaced pipeline fires. -/
  | closeReplaced (index : Nat)
  /-- A request is dispatched to the current pipeline. -/
  | dispatch
  /-- A request has been served. -/
  | served (index : Nat)
deriving DecidableEq

def step [DecidableEq Digest] (sha256 : String → Digest) (gateway : Process Digest) :
    Event → Option (Process Digest)
  | .reload rawYAML outcome =>
      match gateway.reloadFromBytes sha256 rawYAML outcome with
      | .ok next => some next
      | .error _ => some gateway
  | .closeReplaced index =>
      (gateway.closing[index]?).map fun pipeline =>
        { gateway with
          caches := pipeline.close gateway.caches
          closing := gateway.closing.eraseIdx index }
  | .dispatch => some { gateway with requests := gateway.requests ++ [gateway.current] }
  | .served index =>
      (gateway.requests[index]?).map fun _ =>
        { gateway with requests := gateway.requests.eraseIdx index }

/-- Every run of the gateway: reloads, timers and requests in any order. -/
def system [DecidableEq Digest] (sha256 : String → Digest) : System (Process Digest) Event :=
  .ofStep (· = start) (step sha256)

/-- The gateway after the timers of all replaced pipelines have fired. -/
def Process.settle (gateway : Process Digest) : Process Digest :=
  { gateway with
    caches := gateway.closing.foldl (fun caches pipeline => pipeline.close caches) gateway.caches
    closing := [] }

/-- Reloads do not leak. -/
structure LeakFree (gateway : Process Digest) : Prop where
  /-- Once every replaced pipeline is closed, the janitors that run are those of
  the current pipeline. -/
  janitors : ∀ cache, gateway.settle.caches.Running cache ↔ cache ∈ gateway.current.caches
  closedOnce : gateway.settle.caches.closed.Nodup
  /-- A cache is not closed before its pipeline is replaced. -/
  readable : ∀ pipeline ∈ gateway.current :: gateway.requests, ∀ cache ∈ pipeline.caches,
    cache ∈ gateway.caches.closed → pipeline ∈ gateway.replaced

/-- One reload that installs a pipeline counts; it also sets the running hash. -/
def install [DecidableEq Digest] (sha256 : String → Digest) (running : Option Digest × Nat) :
    Event → Option Digest × Nat
  | .reload rawYAML .builds =>
      if running.1 = some (sha256 rawYAML) then running
      else (some (sha256 rawYAML), running.2 + 1)
  | _ => running

/-- How many reloads build a pipeline from an artifact other than the one that
runs. -/
def installs [DecidableEq Digest] (sha256 : String → Digest) (events : List Event) : Nat :=
  (events.foldl (install sha256) (none, 0)).2

/-! ### Accounting for the caches -/

/-- The caches that closing a pipeline closes. -/
def ServingPipeline.closes (pipeline : ServingPipeline Digest) : List CacheId :=
  pipeline.executor.toList.map (·.cache)

/-- The caches that closing a pipeline leaves open. -/
def ServingPipeline.keeps (pipeline : ServingPipeline Digest) : List CacheId :=
  pipeline.handler.toList.map (·.executor.cache)

/-- Every pipeline, oldest first. -/
def Process.pipelines (gateway : Process Digest) : List (ServingPipeline Digest) :=
  gateway.replaced ++ [gateway.current]

/-- The invariant of a run with these events: every cache belongs to one pipeline,
what is closed or about to be are the caches of the replaced pipelines' own
executors, and each pipeline but the first is built by one of the reloads. -/
structure Accounts [DecidableEq Digest] (sha256 : String → Digest) (gateway : Process Digest)
    (events : List Event) : Prop where
  owned : gateway.pipelines.flatMap ServingPipeline.caches = List.range gateway.caches.made
  closed : (gateway.caches.closed ++ gateway.closing.flatMap ServingPipeline.closes).Perm
    (gateway.replaced.flatMap ServingPipeline.closes)
  requests : ∀ pipeline ∈ gateway.requests, pipeline ∈ gateway.pipelines
  built : ∃ built, gateway.pipelines = probes :: built ∧
    (∀ pipeline ∈ built, pipeline.keeps ≠ []) ∧
    events.foldl (install sha256) (none, 0) = (gateway.current.hash, built.length)

/-- Closing a pipeline makes no cache. -/
theorem ServingPipeline.made_close (pipeline : ServingPipeline Digest) (caches : Caches) :
    (pipeline.close caches).made = caches.made := by
  unfold ServingPipeline.close
  split <;> rfl

/-- Closing a pipeline closes the caches it knows. -/
theorem ServingPipeline.closed_close (pipeline : ServingPipeline Digest) (caches : Caches) :
    (pipeline.close caches).closed = caches.closed ++ pipeline.closes := by
  unfold ServingPipeline.close ServingPipeline.closes
  split
  · rename_i present
    rw [present]
    rfl
  · rename_i absent
    rw [absent]
    exact (List.append_nil _).symm

/-- Closing several pipelines makes no cache. -/
theorem made_foldl_close (pipelines : List (ServingPipeline Digest)) (caches : Caches) :
    (pipelines.foldl (fun caches pipeline => pipeline.close caches) caches).made = caches.made := by
  induction pipelines generalizing caches with
  | nil => rfl
  | cons pipeline rest ih => rw [List.foldl_cons, ih, pipeline.made_close]

/-- Closing several pipelines closes the caches of each. -/
theorem closed_foldl_close (pipelines : List (ServingPipeline Digest)) (caches : Caches) :
    (pipelines.foldl (fun caches pipeline => pipeline.close caches) caches).closed =
      caches.closed ++ pipelines.flatMap ServingPipeline.closes := by
  induction pipelines generalizing caches with
  | nil => exact (List.append_nil _).symm
  | cons pipeline rest ih =>
      rw [List.foldl_cons, ih, pipeline.closed_close, List.flatMap_cons, List.append_assoc]

/-- A reload that installs a pipeline, and every other one. -/
theorem step_reload [DecidableEq Digest] (sha256 : String → Digest) (gateway : Process Digest)
    (rawYAML : String) (outcome : ReloadOutcome) :
    (step sha256 gateway (.reload rawYAML outcome) = some gateway ∧
      ∀ count, install sha256 (gateway.current.hash, count) (.reload rawYAML outcome) =
        (gateway.current.hash, count)) ∨
    (step sha256 gateway (.reload rawYAML outcome) = some (gateway.swap
        ⟨⟨some (sha256 rawYAML), some rawYAML⟩, some ⟨gateway.caches.made⟩,
          some ⟨⟨gateway.caches.made + 1⟩⟩⟩
        { gateway.caches with made := gateway.caches.made + 2 }) ∧
      ∀ count, install sha256 (gateway.current.hash, count) (.reload rawYAML outcome) =
        (some (sha256 rawYAML), count + 1)) := by
  cases outcome with
  | loadFails => exact .inl ⟨rfl, fun _ => rfl⟩
  | buildFails =>
      left
      refine ⟨?_, fun _ => rfl⟩
      simp only [step, Process.reloadFromBytes]
      split
      · rename_i reloaded
        split at reloaded <;> cases reloaded
        rfl
      · rfl
  | builds =>
      by_cases running : gateway.current.hash = some (sha256 rawYAML)
      · left
        refine ⟨?_, fun _ => if_pos running⟩
        rw [step, Process.reloadFromBytes, if_pos running]
      · right
        refine ⟨?_, fun _ => if_neg running⟩
        rw [step, Process.reloadFromBytes, if_neg running]
        rfl

/-- The accounts hold before the first pipeline. -/
theorem accounts_start [DecidableEq Digest] (sha256 : String → Digest) :
    Accounts sha256 (start : Process Digest) [] where
  owned := rfl
  closed := .nil
  requests := by simp [start]
  built := ⟨[], rfl, by simp, rfl⟩

section Step

variable [DecidableEq Digest] {sha256 : String → Digest} {gateway next : Process Digest}
  {events : List Event}

/-- A new pipeline comes with the next two caches. -/
theorem Accounts.swap (accounts : Accounts sha256 gateway events) {event : Event}
    {pipeline : ServingPipeline Digest}
    (own : pipeline.caches = [gateway.caches.made, gateway.caches.made + 1])
    (kept : pipeline.keeps ≠ [])
    (counted : ∀ count, install sha256 (gateway.current.hash, count) event =
      (pipeline.hash, count + 1)) :
    Accounts sha256 (gateway.swap pipeline { gateway.caches with made := gateway.caches.made + 2 })
      (events ++ [event]) := by
  have listed : (gateway.swap pipeline { gateway.caches with made := gateway.caches.made + 2 }).pipelines =
      gateway.pipelines ++ [pipeline] := rfl
  obtain ⟨built, isBuilt, keeping, count⟩ := accounts.built
  refine ⟨?_, ?_, ?_, built ++ [pipeline], ?_, ?_, ?_⟩
  · rw [listed, List.flatMap_append, accounts.owned, List.flatMap_singleton, own]
    change _ = List.range (gateway.caches.made + 1 + 1)
    rw [List.range_succ, List.range_succ, List.append_assoc]
    rfl
  · change (gateway.caches.closed ++ (gateway.closing ++ [gateway.current]).flatMap _).Perm
      ((gateway.replaced ++ [gateway.current]).flatMap _)
    rw [List.flatMap_append, List.flatMap_append, ← List.append_assoc]
    exact accounts.closed.append_right _
  · intro request inFlight
    rw [listed]
    exact List.mem_append_left _ (accounts.requests request inFlight)
  · rw [listed, isBuilt]
    rfl
  · intro other member
    rcases List.mem_append.mp member with earlier | latest
    · exact keeping other earlier
    · rw [List.mem_singleton.mp latest]
      exact kept
  · rw [List.foldl_append, count, List.foldl_cons, counted, List.length_append]
    rfl

/-- Firing a timer moves the caches of its pipeline to the closed ones. -/
theorem Accounts.closeReplaced (accounts : Accounts sha256 gateway events) {index : Nat}
    {pipeline : ServingPipeline Digest} (waiting : gateway.closing[index]? = some pipeline) :
    Accounts sha256
      { gateway with
        caches := pipeline.close gateway.caches
        closing := gateway.closing.eraseIdx index }
      (events ++ [.closeReplaced index]) := by
  obtain ⟨bound, isPipeline⟩ := List.getElem?_eq_some_iff.mp waiting
  have moved : (pipeline :: gateway.closing.eraseIdx index).Perm gateway.closing := by
    rw [← isPipeline]
    exact List.getElem_cons_eraseIdx_perm bound
  obtain ⟨built, isBuilt, keeping, count⟩ := accounts.built
  refine ⟨?_, ?_, accounts.requests, built, isBuilt, keeping, ?_⟩
  · rw [pipeline.made_close]
    exact accounts.owned
  · rw [pipeline.closed_close, List.append_assoc, ← List.flatMap_cons]
    exact ((moved.flatMap_right _).append_left _).trans accounts.closed
  · rw [List.foldl_append, count]
    rfl

/-- Every event keeps the accounts. -/
theorem Accounts.step {event : Event} (accounts : Accounts sha256 gateway events)
    (stepped : Gateway.step sha256 gateway event = some next) :
    Accounts sha256 next (events ++ [event]) := by
  obtain ⟨built, isBuilt, keeping, count⟩ := accounts.built
  cases event with
  | reload rawYAML outcome =>
      rcases step_reload sha256 gateway rawYAML outcome with
        ⟨same, uncounted⟩ | ⟨installed, counted⟩
      · cases stepped.symm.trans same
        refine ⟨accounts.owned, accounts.closed, accounts.requests, built, isBuilt, keeping, ?_⟩
        rw [List.foldl_append, count]
        exact uncounted _
      · cases stepped.symm.trans installed
        exact accounts.swap rfl (List.cons_ne_nil _ _) counted
  | closeReplaced index =>
      obtain ⟨pipeline, waiting, rfl⟩ := Option.map_eq_some_iff.mp stepped
      exact accounts.closeReplaced waiting
  | dispatch =>
      cases stepped
      refine ⟨accounts.owned, accounts.closed, ?_, built, isBuilt, keeping, ?_⟩
      · intro request inFlight
        rcases List.mem_append.mp inFlight with earlier | latest
        · exact accounts.requests request earlier
        · rw [List.mem_singleton.mp latest]
          exact List.mem_append_right _ (List.mem_singleton_self _)
      · rw [List.foldl_append, count]
        rfl
  | served index =>
      obtain ⟨_, -, rfl⟩ := Option.map_eq_some_iff.mp stepped
      refine ⟨accounts.owned, accounts.closed, ?_, built, isBuilt, keeping, ?_⟩
      · intro request inFlight
        exact accounts.requests request (List.mem_of_mem_eraseIdx inFlight)
      · rw [List.foldl_append, count]
        rfl

/-- The accounts hold after every run. -/
theorem accounts_of_steps (steps : (system sha256).Steps start events gateway) :
    Accounts sha256 gateway events := by
  induction steps with
  | refl => exact accounts_start sha256
  | step _ transition ih => exact ih.step transition

/-! ### What still runs -/

/-- The caches: those that the replaced pipelines close, those that they leave
open, and those of the current pipeline. -/
theorem Accounts.nodup (accounts : Accounts sha256 gateway events) :
    (gateway.replaced.flatMap ServingPipeline.closes ++
      gateway.replaced.flatMap ServingPipeline.keeps ++ gateway.current.caches).Nodup ∧
    ∀ cache, cache < gateway.caches.made ↔
      cache ∈ gateway.replaced.flatMap ServingPipeline.closes ++
        gateway.replaced.flatMap ServingPipeline.keeps ++ gateway.current.caches := by
  have perm : (gateway.replaced.flatMap ServingPipeline.closes ++
      gateway.replaced.flatMap ServingPipeline.keeps ++ gateway.current.caches).Perm
      (List.range gateway.caches.made) := by
    rw [← accounts.owned, Process.pipelines, List.flatMap_append, List.flatMap_singleton]
    exact (List.flatMap_append_perm _ _ _).append_right _
  refine ⟨perm.nodup_iff.mpr List.nodup_range, fun cache => ?_⟩
  rw [perm.mem_iff, List.mem_range]

/-- When all timers have fired, exactly the replaced pipelines' own executors are
closed. -/
theorem Accounts.closed_settle (accounts : Accounts sha256 gateway events) :
    gateway.settle.caches.closed.Perm (gateway.replaced.flatMap ServingPipeline.closes) := by
  rw [Process.settle, closed_foldl_close]
  exact accounts.closed

/-- When the drained pipelines are closed, the caches left are those of the running pipeline and
those the replaced ones keep. -/
theorem Accounts.running_settle_iff (accounts : Accounts sha256 gateway events) (cache : CacheId) :
    gateway.settle.caches.Running cache ↔
      cache ∈ gateway.replaced.flatMap ServingPipeline.keeps ∨ cache ∈ gateway.current.caches := by
  have made : gateway.settle.caches.made = gateway.caches.made :=
    made_foldl_close gateway.closing gateway.caches
  obtain ⟨nodup, owned⟩ := accounts.nodup
  rw [List.append_assoc] at nodup
  have apart := (List.nodup_append.mp nodup).2.2
  rw [Caches.Running, made, owned, accounts.closed_settle.mem_iff, List.append_assoc,
    List.mem_append, List.mem_append]
  constructor
  · rintro ⟨closed | running, «open»⟩
    · exact absurd closed «open»
    · exact running
  · intro running
    refine ⟨.inr running, fun closed => ?_⟩
    exact apart cache closed cache (List.mem_append.mpr running) rfl

/-- The janitors that run are those of the current pipeline exactly when no replaced
pipeline had a handler. -/
theorem Accounts.janitors_iff (accounts : Accounts sha256 gateway events) :
    (∀ cache, gateway.settle.caches.Running cache ↔ cache ∈ gateway.current.caches) ↔
      gateway.replaced.flatMap ServingPipeline.keeps = [] := by
  constructor
  · intro exact_
    rw [List.eq_nil_iff_forall_not_mem]
    intro cache left_
    have own := (exact_ cache).mp ((accounts.running_settle_iff cache).mpr (.inl left_))
    have apart := (List.nodup_append.mp accounts.nodup.1).2.2
    exact apart cache (List.mem_append_right _ left_) cache own rfl
  · intro none_ cache
    rw [accounts.running_settle_iff, none_]
    simp

/-- The replaced pipelines keep no cache exactly if at most one pipeline was installed. -/
theorem Accounts.keeps_eq_nil_iff (accounts : Accounts sha256 gateway events) :
    gateway.replaced.flatMap ServingPipeline.keeps = [] ↔ installs sha256 events ≤ 1 := by
  obtain ⟨built, isBuilt, keeping, count⟩ := accounts.built
  rw [installs, count]
  rw [Process.pipelines] at isBuilt
  cases replaced : gateway.replaced with
  | nil =>
      rw [replaced] at isBuilt
      obtain rfl := (List.cons.inj isBuilt).2
      simp
  | cons first others =>
      rw [replaced] at isBuilt
      obtain ⟨rfl, rfl⟩ := List.cons.inj isBuilt
      cases others with
      | nil => simp [probes, ServingPipeline.keeps]
      | cons second rest =>
          have kept := keeping second (by simp)
          simp [kept]

/-- No cache is closed twice. -/
theorem Accounts.closedOnce (accounts : Accounts sha256 gateway events) :
    gateway.settle.caches.closed.Nodup := by
  have nodup := accounts.nodup.1
  rw [List.append_assoc] at nodup
  exact accounts.closed_settle.nodup_iff.mpr (List.nodup_append.mp nodup).1

/-- A closed cache belongs to a replaced pipeline and to no other. -/
theorem Accounts.readable (accounts : Accounts sha256 gateway events)
    {pipeline : ServingPipeline Digest} (member : pipeline ∈ gateway.current :: gateway.requests)
    {cache : CacheId} (own : cache ∈ pipeline.caches) (closed : cache ∈ gateway.caches.closed) :
    pipeline ∈ gateway.replaced := by
  have served : pipeline ∈ gateway.pipelines := by
    rcases List.mem_cons.mp member with rfl | inFlight
    · exact List.mem_append_right _ (List.mem_singleton_self _)
    · exact accounts.requests pipeline inFlight
  rcases List.mem_append.mp served with replaced | current
  · exact replaced
  · rw [List.mem_singleton.mp current] at own
    have closes := accounts.closed.mem_iff.mp (List.mem_append_left _ closed)
    have apart := (List.nodup_append.mp accounts.nodup.1).2.2
    exact absurd rfl (apart cache (List.mem_append_left _ closes) cache own)

end Step

/-- Reloads do not leak exactly as long as at most one of them installs a pipeline:
the handler's executor of a pipeline that is replaced is never closed. -/
theorem reloads_leak_free_iff [DecidableEq Digest] (sha256 : String → Digest)
    (events : List Event) (gateway : Process Digest)
    (run : (system sha256).Steps start events gateway) :
    LeakFree gateway ↔ installs sha256 events ≤ 1 := by
  have accounts := accounts_of_steps run
  rw [← accounts.keeps_eq_nil_iff, ← accounts.janitors_iff]
  constructor
  · intro leakFree
    exact leakFree.janitors
  · intro janitors
    exact ⟨janitors, accounts.closedOnce, fun pipeline member cache own closed =>
      accounts.readable member own closed⟩

/-- A gateway that loads its artifact, sees it again, and refuses a broken one. -/
def firstLoads : List Event :=
  [.dispatch, .reload "upstreams: \x7b\x7d\n" .builds, .dispatch,
   .reload "upstreams: \x7b\x7d\n" .builds, .reload "upstreams: [\n" .loadFails, .served 0]

/-- A first artifact that is loaded again leaks nothing. -/
theorem reloads_leak_free_of_first_loads :
    ∃ gateway, (system (id : String → String)).Steps start firstLoads gateway ∧
      installs (id : String → String) firstLoads = 1 ∧ LeakFree gateway := by
  let gateway := (System.replay (step id) (start : Process String) firstLoads).get (by decide)
  have run : (system id).Steps start firstLoads gateway :=
    System.steps_of_replay firstLoads .refl (Option.some_get _).symm
  exact ⟨gateway, run, by decide, (reloads_leak_free_iff id firstLoads gateway run).mpr (by decide)⟩

/-- After a second artifact, the handler's cache of the first one runs on. -/
theorem reload_leaks_handler_cache :
    ¬ ∀ events gateway, (system (id : String → String)).Steps start events gateway →
      LeakFree gateway := by
  intro claimed
  let events : List Event :=
    [.reload "compositions: \x7b\x7d\n" .builds, .reload "upstreams: \x7b\x7d\n" .builds,
     .closeReplaced 0, .closeReplaced 0]
  let gateway := (System.replay (step id) (start : Process String) events).get (by decide)
  have run : (system id).Steps start events gateway :=
    System.steps_of_replay events .refl (Option.some_get _).symm
  have running : gateway.settle.caches.Running 1 := by decide
  have own := ((claimed events gateway run).janitors 1).mp running
  exact absurd own (by decide)

end Restitch.Gateway
