import Mathlib.Algebra.Order.Group.Multiset
import Mathlib.Data.List.Nodup
import Mathlib.Tactic.Abel
import Restitch.Hotreload.RequestSampler

/-!
# Conservation of samples (`hotreload/requests.go`)

A sample is in the queue, pending, fresh in a push, delivered or dropped. A push whose send
fails keeps this whatever happened meanwhile: it drops what is pending now and leaves its own.
A push whose send succeeds drops what is pending unseen, which is right only if that is what it
sent.
-/

namespace Restitch.Hotreload

open Restitch.Reqlog Restitch.Semantics

/-- Where the samples are, and the bounds. -/
structure SamplesConserved (state : SamplerState) : Prop where
  /-- With no push in progress, every sampled record is in one place, and there once. -/
  once : state.pushes = [] → state.sampled.Nodup ∧
    (state.queue ++ state.pending ++ state.delivered.flatten ++ state.lost).Perm state.sampled
  counted : state.pushes = [] → state.dropped = state.lost.length
  pendingOnce : state.pending.Nodup
  queueBound : state.queue.length ≤ maxQueuedSamples
  pendingBound : state.pending.length ≤ maxQueuedSamples

/-- A push whose send succeeds finds pending as it took it, and marshalled its batch before
another push wrote to the array of it. -/
def SendsWhatIsPending (state : SamplerState) : SamplerEvent → Prop
  | .finish index true => ∀ push, state.pushes[index]? = some push →
      push.taken = state.pending ∧ push.body = some (push.taken ++ push.fresh)
  | _ => True

section Invariant

variable {state next : SamplerState} {event : SamplerEvent}

/-- The samples that the pushes in progress took from the queue. -/
def freshOf (pushes : List Push) : List Sample := pushes.flatMap Push.fresh

/-- Every sampled record is in one place, those of a push in progress in its fresh samples. -/
structure SamplerInvariant (state : SamplerState) : Prop where
  numbered : ∀ sample ∈ state.sampled, sample.number < state.calls
  unique : state.sampled.Nodup
  places : (state.queue ++ state.pending ++ freshOf state.pushes ++ state.delivered.flatten ++
    state.lost).Perm state.sampled
  counted : state.dropped = state.lost.length
  queueBound : state.queue.length ≤ maxQueuedSamples
  pendingBound : state.pending.length ≤ maxQueuedSamples
  freshBound : ∀ push ∈ state.pushes, push.fresh.length ≤ maxQueuedSamples

/-- The invariant holds at the start. -/
theorem samplerInvariant_started : SamplerInvariant startedSampler where
  numbered := List.forall_mem_nil _
  unique := List.nodup_nil
  places := .refl _
  counted := rfl
  queueBound := Nat.zero_le _
  pendingBound := Nat.zero_le _
  freshBound := List.forall_mem_nil _

/-- A sample with a new number is new. -/
theorem SamplerInvariant.unique_concat (invariant : SamplerInvariant state) (record : Record) :
    (state.sampled ++ [(⟨state.calls, record⟩ : Sample)]).Nodup := by
  refine List.nodup_append.mpr ⟨invariant.unique, List.nodup_singleton _, ?_⟩
  intro sample member other isNew same
  cases List.mem_singleton.mp isNew
  subst same
  exact absurd (invariant.numbered _ member) (Nat.lt_irrefl _)

/-- The samples are numbered by the calls before them. -/
theorem SamplerInvariant.numbered_concat (invariant : SamplerInvariant state) (record : Record)
    (sample : Sample) (member : sample ∈ state.sampled ++ [(⟨state.calls, record⟩ : Sample)]) :
    sample.number < state.calls + 1 := by
  rw [List.mem_append, List.mem_singleton] at member
  rcases member with earlier | rfl
  · exact Nat.lt_succ_of_lt (invariant.numbered sample earlier)
  · exact Nat.lt_succ_self _

/-- A record is queued, dropped or not sampled. -/
theorem SamplerInvariant.record (invariant : SamplerInvariant state) (record : Record)
    (taken : samplerStep state (.record record) = some next) : SamplerInvariant next := by
  rw [samplerStep] at taken
  dsimp only at taken
  rcases state.record_cases ⟨state.calls, record⟩ with ⟨outcome, sameQueue, sameCount⟩ |
    ⟨outcome, -, sameQueue, oneMore⟩ | ⟨outcome, room, isQueue, sameCount⟩
  · rw [outcome] at taken
    cases taken
    refine ⟨fun sample member => Nat.lt_succ_of_lt (invariant.numbered sample member),
      invariant.unique, ?_, sameCount.trans invariant.counted, ?_, invariant.pendingBound,
      invariant.freshBound⟩
    · rw [sameQueue]
      exact invariant.places
    · rw [sameQueue]
      exact invariant.queueBound
  · rw [outcome] at taken
    cases taken
    refine ⟨invariant.numbered_concat record, invariant.unique_concat record, ?_, ?_, ?_,
      invariant.pendingBound, invariant.freshBound⟩
    · rw [sameQueue, ← List.append_assoc]
      exact invariant.places.append_right _
    · rw [oneMore, List.length_append, invariant.counted]
      rfl
    · rw [sameQueue]
      exact invariant.queueBound
  · rw [outcome] at taken
    cases taken
    refine ⟨invariant.numbered_concat record, invariant.unique_concat record, ?_,
      sameCount.trans invariant.counted, ?_, invariant.pendingBound, invariant.freshBound⟩
    · rw [isQueue]
      refine List.Perm.trans ?_ (invariant.places.append_right _)
      rw [← Multiset.coe_eq_coe]
      simp only [← Multiset.coe_add]
      abel
    · rw [isQueue, List.length_append]
      exact room

/-- Writing to shared arrays changes no fresh samples. -/
theorem fresh_overwritten (push : Push) (array : Option Nat) (written : List Sample) :
    (push.overwritten array written).fresh = push.fresh := by
  rw [Push.overwritten]
  split <;> rfl

/-- The fresh samples of several pushes are those of each. -/
theorem freshOf_append (first second : List Push) :
    freshOf (first ++ second) = freshOf first ++ freshOf second :=
  List.flatMap_append

/-- Writing to a shared array leaves the fresh samples. -/
theorem freshOf_overwritten (pushes : List Push) (array : Option Nat) (written : List Sample) :
    freshOf (pushes.map (Push.overwritten · array written)) = freshOf pushes := by
  rw [freshOf, List.flatMap_map]
  exact List.flatMap_congr fun push _ => fresh_overwritten push array written

/-- The first critical section moves the queue to the fresh samples of a new push. -/
theorem SamplerInvariant.move_queue (invariant : SamplerInvariant state) {pushes : List Push}
    (isFresh : freshOf pushes = freshOf state.pushes ++ state.queue) :
    ([] ++ state.pending ++ freshOf pushes ++ state.delivered.flatten ++ state.lost).Perm
      state.sampled := by
  refine List.Perm.trans ?_ invariant.places
  rw [isFresh, List.nil_append, ← Multiset.coe_eq_coe]
  simp only [← Multiset.coe_add]
  abel

/-- A push that starts takes the queue as its fresh samples. -/
theorem SamplerInvariant.start (invariant : SamplerInvariant state) (room : Bool)
    (taken : samplerStep state (.start room) = some next) : SamplerInvariant next := by
  rw [samplerStep, RequestSampler.takeQueue] at taken
  dsimp only at taken
  split at taken
  · rename_i empty
    have noQueue : state.queue = [] := (List.append_eq_nil_iff.mp empty).2
    cases taken
    refine ⟨invariant.numbered, invariant.unique, ?_, invariant.counted, Nat.zero_le _,
      invariant.pendingBound, invariant.freshBound⟩
    have places := invariant.places
    rw [noQueue] at places
    exact places
  · split at taken
    · cases taken
      refine ⟨invariant.numbered, invariant.unique, invariant.move_queue ?_, invariant.counted,
        Nat.zero_le _, invariant.pendingBound, ?_⟩
      · rw [freshOf_append, freshOf_overwritten]
        exact congrArg _ (List.append_nil _)
      · intro push member
        rw [List.mem_append, List.mem_singleton, List.mem_map] at member
        rcases member with ⟨earlier, earlierMember, rfl⟩ | rfl
        · rw [fresh_overwritten]
          exact invariant.freshBound earlier earlierMember
        · exact invariant.queueBound
    · cases taken
      refine ⟨invariant.numbered, invariant.unique, invariant.move_queue ?_, invariant.counted,
        Nat.zero_le _, invariant.pendingBound, ?_⟩
      · rw [freshOf_append]
        exact congrArg _ (List.append_nil _)
      · intro push member
        rw [List.mem_append, List.mem_singleton] at member
        rcases member with earlier | rfl
        · exact invariant.freshBound push earlier
        · exact invariant.queueBound

/-- A push that keeps its fresh samples. -/
theorem freshOf_set {pushes : List Push} {index : Nat} {push changed : Push}
    (found : pushes[index]? = some push) (same : changed.fresh = push.fresh) :
    freshOf (pushes.set index changed) = freshOf pushes := by
  induction pushes generalizing index with
  | nil => rfl
  | cons first rest ih =>
      cases index with
      | zero =>
          cases found
          rw [List.set_cons_zero, freshOf, freshOf, List.flatMap_cons, List.flatMap_cons, same]
      | succ index =>
          rw [List.getElem?_cons_succ] at found
          rw [List.set_cons_succ, freshOf, freshOf, List.flatMap_cons, List.flatMap_cons]
          exact congrArg _ (ih found)

/-- Marshalling moves no sample. -/
theorem SamplerInvariant.marshal (invariant : SamplerInvariant state) (index : Nat)
    (taken : samplerStep state (.marshal index) = some next) : SamplerInvariant next := by
  rw [samplerStep] at taken
  split at taken
  · rename_i push found
    split at taken
    · cases taken
    · cases taken
      refine ⟨invariant.numbered, invariant.unique, ?_, invariant.counted, invariant.queueBound,
        invariant.pendingBound, ?_⟩
      · rw [freshOf_set found]
        · exact invariant.places
        · rfl
      · intro other member
        rcases List.mem_or_eq_of_mem_set member with earlier | rfl
        · exact invariant.freshBound other earlier
        · exact invariant.freshBound push (List.mem_of_getElem? found)
  · cases taken

/-- The push that ends, and the others. -/
theorem freshOf_eraseIdx {pushes : List Push} {index : Nat} {push : Push}
    (found : pushes[index]? = some push) :
    (push.fresh ++ freshOf (pushes.eraseIdx index)).Perm (freshOf pushes) := by
  obtain ⟨bound, isPush⟩ := List.getElem?_eq_some_iff.mp found
  subst isPush
  exact (List.getElem_cons_eraseIdx_perm bound).flatMap_right Push.fresh

/-- A push that ends delivers what is pending and fresh, or leaves its fresh samples pending and
drops what was. -/
theorem SamplerInvariant.finish (invariant : SamplerInvariant state) (index : Nat) (sent : Bool)
    (taken : samplerStep state (.finish index sent) = some next)
    (allowed : SendsWhatIsPending state (.finish index sent)) : SamplerInvariant next := by
  rw [samplerStep] at taken
  split at taken
  · rename_i push found
    have fresh := freshOf_eraseIdx found
    have freshBound : ∀ other ∈ state.pushes.eraseIdx index,
        other.fresh.length ≤ maxQueuedSamples := fun other member =>
      invariant.freshBound other (List.mem_of_mem_eraseIdx member)
    cases sent with
    | true =>
        obtain ⟨isPending, isBody⟩ := allowed push found
        rw [isBody, isPending] at taken
        cases taken
        refine ⟨invariant.numbered, invariant.unique, ?_, invariant.counted,
          invariant.queueBound, Nat.zero_le _, freshBound⟩
        refine List.Perm.trans ?_ invariant.places
        rw [← Multiset.coe_eq_coe] at fresh ⊢
        rw [List.flatten_append, List.flatten_singleton]
        simp only [← Multiset.coe_add, ← fresh, Multiset.coe_nil]
        abel
    | false =>
        cases taken
        refine ⟨invariant.numbered, invariant.unique, ?_, ?_, invariant.queueBound,
          invariant.freshBound push (List.mem_of_getElem? found), freshBound⟩
        · refine List.Perm.trans ?_ invariant.places
          rw [← Multiset.coe_eq_coe] at fresh ⊢
          simp only [← Multiset.coe_add, ← fresh]
          abel
        · dsimp only
          rw [List.length_append, invariant.counted]
  · cases taken

/-- Every step that meets the condition keeps the samples. -/
theorem SamplerInvariant.step (invariant : SamplerInvariant state)
    (taken : samplerStep state event = some next) (allowed : SendsWhatIsPending state event) :
    SamplerInvariant next := by
  cases event with
  | record record => exact invariant.record record taken
  | start room => exact invariant.start room taken
  | marshal index => exact invariant.marshal index taken
  | finish index sent => exact invariant.finish index sent taken allowed

/-- The invariant conserves the samples. -/
theorem SamplerInvariant.conserved (invariant : SamplerInvariant state) :
    SamplesConserved state where
  once none := by
    have places := invariant.places
    rw [none, freshOf, List.flatMap_nil, List.append_nil] at places
    exact ⟨invariant.unique, places⟩
  counted _ := invariant.counted
  pendingOnce := by
    have unique := invariant.places.nodup_iff.mpr invariant.unique
    simp only [List.append_assoc] at unique
    exact (List.nodup_append.mp (List.nodup_append.mp unique).2.1).1
  queueBound := invariant.queueBound
  pendingBound := invariant.pendingBound

/-- In every run in which a push whose send succeeds finds pending as it took it, no sample is
lost, doubled or miscounted. -/
theorem samples_conserved
    (reached : (samplerSystem.restrict SendsWhatIsPending).Reachable state) :
    SamplesConserved state := by
  refine SamplerInvariant.conserved ?_
  refine reached.induction _ ?_ ?_
  · rintro start rfl
    exact samplerInvariant_started
  · intro earlier event later _ invariant transition
    exact invariant.step transition.1 transition.2

end Invariant

section Runs

/-- A failed request. -/
def failedRecord : Record := ⟨"", "", 0, "orders", "GET", "/orders", 502, 1, false, ∅, []⟩

/-- A push fails and leaves its sample. Two more pushes take it, the second one before the send
of the first one is over. -/
def failedThenOverlapping : List SamplerEvent :=
  [.record failedRecord, .start false, .marshal 0, .finish 0 false, .record failedRecord,
    .start true, .marshal 0, .record failedRecord, .start true, .marshal 1]

/-- The first of the two succeeds and delivers two samples together, and the second one fails
and leaves the third sample for the next push. -/
theorem samples_conserved_failedThenOverlapping :
    ∃ state, (samplerSystem.restrict SendsWhatIsPending).Reachable state ∧
      state.delivered = [[⟨0, failedRecord⟩, ⟨1, failedRecord⟩]] ∧
      state.pending = [⟨2, failedRecord⟩] ∧ SamplesConserved state := by
  let state := (System.replay samplerStep startedSampler failedThenOverlapping).get rfl
  have overlapping : (samplerSystem.restrict SendsWhatIsPending).Reachable state := by
    refine System.reachable_of_allowed failedThenOverlapping (.initial rfl) ?_
      (Option.some_get _).symm
    intro event member _
    simp only [failedThenOverlapping, List.mem_cons, List.not_mem_nil, or_false] at member
    rcases member with rfl | rfl | rfl | rfl | rfl | rfl | rfl | rfl | rfl | rfl <;> trivial
  have delivered := overlapping.step ⟨(rfl : samplerStep state (.finish 0 true) = some _),
    fun push isPush => Option.some_inj.mp isPush ▸ ⟨rfl, rfl⟩⟩
  have ended := delivered.step ⟨(rfl : samplerStep _ (.finish 0 false) = some _), trivial⟩
  exact ⟨_, ended, rfl, rfl, samples_conserved ended⟩

/-- A push starts during another one and fails first, and then the other one succeeds. -/
def overlappingPushes : List SamplerEvent :=
  [.record failedRecord, .start false, .record failedRecord, .start false, .marshal 0, .marshal 1,
    .finish 1 false, .finish 0 true]

/-- The sample that the failed push left is lost. -/
theorem overlappingPushes_not_conserved :
    ∃ state, samplerSystem.Reachable state ∧ ¬ SamplesConserved state := by
  have ends : System.replay samplerStep startedSampler overlappingPushes = some _ := rfl
  refine ⟨_, System.reachable_of_replay _ (.initial rfl) ends, ?_⟩
  intro conserved
  have places := (conserved.once rfl).2.length_eq
  exact absurd places (by decide)

end Runs

end Restitch.Hotreload
