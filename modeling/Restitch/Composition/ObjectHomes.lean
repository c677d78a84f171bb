import Restitch.Composition.CallPhases
import Restitch.Composition.ResponseFrame

/-!
# Homes of objects

Every cell of the store belongs to the config, to the call whose response it was
parsed from, or to a request. A request sees the cells of what it holds, and a
layout says that no cell leads a request to one that it does not see, or to the
errors of another request.
-/

namespace Restitch.Composition

open Restitch.Semantics Restitch.Std Restitch.Std.ObjectHeap

/-- What a cell of the store belongs to. -/
inductive Home where
  | config
  /-- The body that the exchange or the cache hit of a call was parsed to. -/
  | call (call : CallId)
  | request (rid : RequestId)
deriving DecidableEq

/-- The call executes a step of the request. -/
def Owns (state : GatewayState) (rid : RequestId) (call : CallId) : Prop :=
  ∃ record name, state.requests rid = some record ∧ (name, call) ∈ record.calls

/-- The objects that a request has to do with. -/
def Visible (state : GatewayState) (rid : RequestId) : Home → Prop
  | .config => ∃ call leader result, Owns state rid call ∧
      Holds state.shared call leader result ∧ result.errorRuleMatched = true
  | .call leader => ∃ call result, Owns state rid call ∧ Holds state.shared call leader result
  | .request other => other = rid

/-- A value that may stand in a cell with this home. -/
def Fits (visible : RequestId → Home → Prop) (homes : List Home) : Home → Val → Prop
  | _, .scalar _ => True
  | .config, .mark _ => False
  | .call leader, .mark tag => ∀ rid, visible rid (.call leader) → rid = tag
  | .request rid, .mark tag => tag = rid
  | .config, .ref address => homes[address]? = some .config
  | .call leader, .ref address => homes[address]? = some (.call leader)
  | .request rid, .ref address => ∃ home, homes[address]? = some home ∧ visible rid home

/-- Every cell of the store has a home and holds what fits. -/
structure Layout (visible : RequestId → Home → Prop) (homes : List Home) (store : Store) :
    Prop where
  length : homes.length = store.length
  fits : ∀ (address : Nat) (home : Home) (cell : Cell Leaf RequestId),
    homes[address]? = some home → store[address]? = some cell →
    ∀ v ∈ cell.data, Fits visible homes home v

section Layouts

variable {visible later : RequestId → Home → Prop} {homes : List Home} {store : Store}
  {home : Home} {rid : RequestId} {v : Val}

/-- More homes leave a value fitting. -/
theorem Fits.append (fits : Fits visible homes home v) (more : List Home) :
    Fits visible (homes ++ more) home v := by
  have old {address : Nat} {at_ : Home} (found : homes[address]? = some at_) :
      (homes ++ more)[address]? = some at_ := by
    rw [List.getElem?_append_left (List.getElem?_eq_some_iff.mp found).1]
    exact found
  cases v with
  | scalar leaf => cases home <;> trivial
  | mark tag => cases home <;> exact fits
  | ref address =>
      cases home with
      | config => exact old fits
      | call leader => exact old fits
      | request rid =>
          obtain ⟨at_, found, seen⟩ := fits
          exact ⟨at_, old found, seen⟩

/-- What a request sees may grow, except that nobody new sees the body of a call. -/
theorem Fits.mono (forward : ∀ rid home, home ∈ homes → visible rid home → later rid home)
    (backward : ∀ rid leader, home = .call leader → later rid (.call leader) →
      visible rid (.call leader))
    (fits : Fits visible homes home v) : Fits later homes home v := by
  cases v with
  | scalar leaf => cases home <;> trivial
  | mark tag =>
      cases home with
      | config => exact fits
      | call leader => exact fun rid seen => fits rid (backward rid leader rfl seen)
      | request rid => exact fits
  | ref address =>
      cases home with
      | config => exact fits
      | call leader => exact fits
      | request rid =>
          obtain ⟨at_, found, seen⟩ := fits
          exact ⟨at_, found, forward rid at_ (List.mem_of_getElem? found) seen⟩

/-- A layout is kept as more becomes visible. -/
theorem Layout.mono (layout : Layout visible homes store)
    (forward : ∀ rid home, home ∈ homes → visible rid home → later rid home)
    (backward : ∀ rid leader, .call leader ∈ homes → later rid (.call leader) →
      visible rid (.call leader)) : Layout later homes store := by
  refine ⟨layout.length, ?_⟩
  intro address home cell isHome found v member
  refine (layout.fits address home cell isHome found v member).mono forward ?_
  rintro rid leader rfl
  exact backward rid leader (List.mem_of_getElem? isHome)

/-- New cells with one home. -/
theorem Layout.append (layout : Layout visible homes store) (home : Home) (cells : Store)
    (fits : ∀ cell ∈ cells, ∀ v ∈ cell.data,
      Fits visible (homes ++ List.replicate cells.length home) home v) :
    Layout visible (homes ++ List.replicate cells.length home) (store ++ cells) := by
  refine ⟨by simp [layout.length], ?_⟩
  intro address at_ cell isHome found v member
  by_cases old : address < store.length
  · rw [List.getElem?_append_left (layout.length ▸ old)] at isHome
    rw [List.getElem?_append_left old] at found
    exact (layout.fits address at_ cell isHome found v member).append _
  · have beyond : store.length ≤ address := Nat.le_of_not_lt old
    rw [List.getElem?_append_right (layout.length ▸ beyond)] at isHome
    rw [List.getElem?_append_right beyond] at found
    cases List.eq_of_mem_replicate (List.mem_of_getElem? isHome)
    exact fits cell (List.mem_of_getElem? found) v member

/-- A mark that fits may be written. -/
theorem Layout.writeMark (layout : Layout visible homes store) {address : Nat} {key : String}
    {tag : RequestId} (isHome : homes[address]? = some home)
    (fits : Fits visible homes home (.mark tag)) :
    Layout visible homes (writeMark store address key tag) := by
  refine ⟨by rw [length_writeMark, layout.length], ?_⟩
  intro other at_ cell atHome found v member
  rcases points_of_writeMark store address key tag ⟨other, cell, rfl, found, member⟩ with
    ⟨_, old, same, isOld, memberOld⟩ | ⟨same, rfl⟩
  · cases same
    exact layout.fits other at_ old atHome isOld v memberOld
  · cases same
    rw [isHome] at atHome
    cases atHome
    exact fits

/-- The cells that a request sees, and all that are not there yet. -/
def seenBy (visible : RequestId → Home → Prop) (homes : List Home) (rid : RequestId)
    (address : Nat) : Prop :=
  (∃ home, homes[address]? = some home ∧ visible rid home) ∨ homes.length ≤ address

/-- What fits a visible home is within what the request sees. -/
theorem Fits.within (fits : Fits visible homes home v) (length : homes.length = store.length)
    (seen : visible rid home) (own : ∀ other, visible rid (.request other) → other = rid) :
    Within (seenBy visible homes rid) (· = rid) store v := by
  have inStore {address : Nat} {at_ : Home} (found : homes[address]? = some at_)
      (seen : visible rid at_) :
      Within (seenBy visible homes rid) (· = rid) store (.ref address) :=
    ⟨length ▸ (List.getElem?_eq_some_iff.mp found).1, .inl ⟨at_, found, seen⟩⟩
  cases v with
  | scalar leaf => trivial
  | mark tag =>
      cases home with
      | config => exact fits.elim
      | call leader => exact (fits rid seen).symm
      | request other =>
          cases own other seen
          exact fits
  | ref address =>
      cases home with
      | config => exact inStore fits seen
      | call leader => exact inStore fits seen
      | request other =>
          cases own other seen
          obtain ⟨at_, found, seenAt⟩ := fits
          exact inStore found seenAt

/-- A layout leaves room for a response of the request. -/
theorem Layout.room (layout : Layout visible homes store)
    (own : ∀ other, visible rid (.request other) → other = rid) :
    Room (seenBy visible homes rid) (· = rid) [] store := by
  refine ⟨?_, ?_, nofun⟩
  · intro address cell seen found v member
    have bound : address < store.length := (List.getElem?_eq_some_iff.mp found).1
    rcases seen with ⟨home, isHome, seen⟩ | beyond
    · exact (layout.fits address home cell isHome found v member).within layout.length seen own
    · rw [layout.length] at beyond
      exact absurd bound (Nat.not_lt_of_le beyond)
  · intro address bound
    exact .inr (layout.length ▸ bound)

/-- What a request builds from what it sees. -/
theorem fits_of_within {cells : Store} (length : homes.length = store.length)
    (own : visible rid (.request rid))
    (within : Within (seenBy visible homes rid) (· = rid) (store ++ cells) v) :
    Fits visible (homes ++ List.replicate cells.length (.request rid)) (.request rid) v := by
  cases v with
  | scalar leaf => trivial
  | mark tag => exact within
  | ref address =>
      obtain ⟨bound, ⟨home, found, seen⟩ | beyond⟩ := within
      · refine ⟨home, ?_, seen⟩
        rw [List.getElem?_append_left (List.getElem?_eq_some_iff.mp found).1]
        exact found
      · refine ⟨.request rid, ?_, own⟩
        rw [List.length_append, ← length] at bound
        rw [List.getElem?_append_right beyond, List.getElem?_replicate, if_pos]
        omega

/-- What a request builds is its own. -/
theorem Layout.grow {cells : Store} (layout : Layout visible homes store)
    (own : visible rid (.request rid))
    (grows : Grows (seenBy visible homes rid) (· = rid) [] store (store ++ cells)) :
    Layout visible (homes ++ List.replicate cells.length (.request rid)) (store ++ cells) := by
  refine layout.append _ _ ?_
  intro cell member v inCell
  refine fits_of_within layout.length own (grows.cells_within ?_ cell member v inCell)
  intro address bound
  exact .inr (layout.length ▸ bound)

/-- A placed document keeps to its own cells. -/
theorem fits_shift {cells : Store} (length : homes.length = store.length)
    (own : home = .config → False) (seen : ∀ rid, home = .request rid → visible rid (.request rid))
    (within : Within (fun _ => True) (fun _ => False) cells v) :
    Fits visible (homes ++ List.replicate cells.length home) home (v.shift store.length) := by
  cases v with
  | scalar leaf => cases home <;> trivial
  | mark tag => exact within.elim
  | ref address =>
      have found : (homes ++ List.replicate cells.length home)[store.length + address]? =
          some home := by
        rw [← length, List.getElem?_append_right (Nat.le_add_right _ _), Nat.add_sub_cancel_left,
          List.getElem?_replicate, if_pos within.1]
      cases home with
      | config => exact (own rfl).elim
      | call leader => exact found
      | request rid => exact ⟨_, found, seen rid rfl⟩

/-- A document that is placed keeps the layout. -/
theorem Layout.place (layout : Layout visible homes store) (document : Document) (home : Home)
    (own : home = .config → False) (seen : ∀ rid, home = .request rid → visible rid (.request rid)) :
    Layout visible (homes ++ List.replicate document.cells.length home)
      (place document store).2 := by
  have fits : ∀ cell ∈ document.cells.map (Cell.shift store.length), ∀ v ∈ cell.data,
      Fits visible (homes ++ List.replicate document.cells.length home) home v := by
    intro cell member v inCell
    obtain ⟨original, listed, rfl⟩ := List.mem_map.mp member
    rw [Cell.data_shift] at inCell
    obtain ⟨old, inOld, rfl⟩ := List.mem_map.mp inCell
    exact fits_shift layout.length own seen (document.cells_within original listed old inOld)
  have placed := layout.append home (document.cells.map (Cell.shift store.length))
  rw [List.length_map] at placed
  exact placed fits

end Layouts

end Restitch.Composition
