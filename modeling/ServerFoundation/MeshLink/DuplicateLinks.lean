import ServerFoundation.Data.JsText
import ServerFoundation.Data.Positions
import ServerFoundation.Data.TransitionSystem

/-!
# Duplicate mesh links

Two runtimes can open any number of links to each other. Each of them keeps one: when
an `open` or `accept` event brings a further link to the same endpoint,
`resolveDuplicatePeer` prefers the links that the endpoint with the smaller id has
opened, and otherwise the link that arrived first at this side. A close is observed
in two steps, first by the ready state of the socket and then by its `close` event.

Two links of the same direction need not arrive in the same order at both sides. Each
side then may keep the link that the other one closes. As long as no side closes the
registered link of the other one in favour of a link that the other one has already
closed, the two sides end up with the same open link.
-/

namespace ServerFoundation.MeshLink

/-- The two ends of a pairing. -/
inductive Side where
  | left
  | right
deriving DecidableEq, Repr

/-- The end on the other side. -/
def Side.other : Side → Side
  | .left => .right
  | .right => .left

/-- The direction of a link at one end. -/
inductive Direction where
  | inbound
  | outbound
deriving DecidableEq, Repr

/-- What one side has seen of a link: nothing yet, an open peer, one whose socket is closing, or a
closed one. -/
inductive LinkView where
  | unseen
  | connected
  | closing
  | closed
deriving DecidableEq, Repr

/-- What a runtime knows of the other one: its view of each link, and its entry in
`peersByIdentity`. -/
structure Endpoint where
  views : List LinkView
  entry : Option (ℕ × Direction)
deriving DecidableEq, Repr

/-- The ids of the two runtimes, each of which is a UUID of its own. -/
structure EndpointIds where
  id : Side → String
  distinct : id .left ≠ id .right

namespace Endpoint

variable (endpoint : Endpoint)

/-- The view of a link is replaced. -/
def setView (link : ℕ) (view : LinkView) : Endpoint :=
  { endpoint with views := endpoint.views.set link view }

/-- The close handler that `createPeer` installs. -/
def removeEntry (link : ℕ) : Endpoint :=
  if endpoint.entry.map Prod.fst = some link then { endpoint with entry := none } else endpoint

/-- `peer.close`, whose close handlers run at once. -/
def closePeer (link : ℕ) : Endpoint := (endpoint.setView link .closed).removeEntry link

/-- A link is registered. -/
def setEntry (link : ℕ) (direction : Direction) : Endpoint :=
  { endpoint with entry := some (link, direction) }

/-- The registered link, if its peer is connected. -/
def connectedEntry : Option (ℕ × Direction) :=
  endpoint.entry.filter fun existing => endpoint.views[existing.1]? = some .connected

/-- The link that `resolveDuplicatePeer` closes and the one that it keeps, if it closes any. -/
def duplicate (preferredDirection : Direction) (link : ℕ) (direction : Direction) :
    Option (ℕ × ℕ) :=
  endpoint.connectedEntry.map fun existing =>
    if direction = preferredDirection ∧ existing.2 ≠ preferredDirection then (existing.1, link)
    else (link, existing.1)

/-- `resolveDuplicatePeer`. -/
def resolveDuplicatePeer (preferredDirection : Direction) (link : ℕ) (direction : Direction) :
    Endpoint :=
  match endpoint.connectedEntry with
  | none => endpoint.setEntry link direction
  | some (existing, existingDirection) =>
      if direction = preferredDirection ∧ existingDirection ≠ preferredDirection then
        (endpoint.setEntry link direction).closePeer existing
      else endpoint.closePeer link

end Endpoint

/-- Two runtimes and the links between them, each by the side that has opened it. -/
structure Pairing where
  initiators : List Side
  endpoint : Side → Endpoint

/-- What happens between the two ends. -/
inductive PairingStep where
  | connect (initiator : Side)
  | arrive (side : Side) (link : ℕ)
  | refuse (side : Side) (link : ℕ)
  | receiveClose (side : Side) (link : ℕ)
  | closeEvent (side : Side) (link : ℕ)
deriving DecidableEq, Repr

namespace Pairing

variable (ids : EndpointIds) (pairing : Pairing)

/-- No link has been opened. -/
def start : Pairing := ⟨[], fun _ => ⟨[], none⟩⟩

/-- `preferredDirection` of `resolveDuplicatePeer` at one side. -/
def preferredDirection (side : Side) : Direction :=
  if JsText.units (ids.id side) < JsText.units (ids.id side.other) then .outbound else .inbound

/-- The direction of a link at a side. -/
def direction (side : Side) (link : ℕ) : Direction :=
  if pairing.initiators[link]? = some side then .outbound else .inbound

/-- What a side has seen of a link. -/
def view (side : Side) (link : ℕ) : Option LinkView := (pairing.endpoint side).views[link]?

/-- The state of one side is replaced. -/
def update (side : Side) (endpoint : Endpoint) : Pairing :=
  { pairing with endpoint := Function.update pairing.endpoint side endpoint }

/-- What a step does to the pairing. -/
def apply : PairingStep → Pairing
  | .connect initiator =>
      { initiators := pairing.initiators ++ [initiator]
        endpoint := fun side =>
          { pairing.endpoint side with
            views := (pairing.endpoint side).views ++ [.unseen] } }
  | .arrive side link =>
      pairing.update side (((pairing.endpoint side).setView link .connected).resolveDuplicatePeer
        (preferredDirection ids side) link (pairing.direction side link))
  | .refuse side link => pairing.update side ((pairing.endpoint side).setView link .closed)
  | .receiveClose side link => pairing.update side ((pairing.endpoint side).setView link .closing)
  | .closeEvent side link => pairing.update side ((pairing.endpoint side).closePeer link)

/-- A link opens once at each side, only the side that did not open it can refuse it, and a close is
observed after the other side has closed. -/
def Enabled : PairingStep → Prop
  | .connect _ => True
  | .arrive side link => pairing.view side link = some .unseen
  | .refuse side link =>
      pairing.view side link = some .unseen ∧ pairing.direction side link = .inbound
  | .receiveClose side link =>
      pairing.view side link = some .connected ∧ pairing.view side.other link = some .closed
  | .closeEvent side link => pairing.view side link = some .closing

instance : DecidablePred pairing.Enabled
  | .connect _ => isTrue trivial
  | .arrive _ _ => inferInstanceAs (Decidable (_ = _))
  | .refuse _ _ => inferInstanceAs (Decidable (_ ∧ _))
  | .receiveClose _ _ => inferInstanceAs (Decidable (_ ∧ _))
  | .closeEvent _ _ => inferInstanceAs (Decidable (_ = _))

/-- The pairings of two sides. -/
def system : TransitionSystem Pairing PairingStep where
  Init := (· = start)
  Step before step after := before.Enabled step ∧ after = before.apply ids step

/-- All events have been delivered: both sides have seen every link, and every close. -/
def Quiescent : Prop :=
  ∀ side link view, pairing.view side link = some view → view ≠ .unseen ∧ view ≠ .closing ∧
    (view = .connected → pairing.view side.other link ≠ some .closed)

/-- Both sides have registered the same link, and it is open at both of them. -/
def Converged : Prop :=
  ∃ link, ∀ side, pairing.view side link = some .connected ∧
    ((pairing.endpoint side).entry.map Prod.fst) = some link

/-- No link is refused, and no side closes the registered link of the other side in favour of one
that the other side has already closed. -/
def NoMutualClose : PairingStep → Prop
  | .arrive side link =>
      ∀ pair ∈ ((pairing.endpoint side).setView link .connected).duplicate
          (preferredDirection ids side) link (pairing.direction side link),
        (pairing.endpoint side.other).entry.map Prod.fst = some pair.1 →
          pairing.view side.other pair.2 ≠ some .closed
  | .refuse _ _ => False
  | _ => True

instance : DecidablePred (pairing.NoMutualClose ids)
  | .arrive _ _ => inferInstanceAs (Decidable (∀ pair ∈ _, _ → _ ≠ _))
  | .refuse _ _ => isFalse id
  | .connect _ | .receiveClose _ _ | .closeEvent _ _ => isTrue trivial

/-- The side with the smaller id. -/
def preferredInitiator : Side :=
  if JsText.units (ids.id .left) < JsText.units (ids.id .right) then .left else .right

/-- A link that was opened by the side with the smaller id. -/
def Preferred (link : ℕ) : Prop := pairing.initiators[link]? = some (preferredInitiator ids)

/-- A side has registered every link whose peer is connected, a registered link has arrived and is
not closed, and a socket closes because the other side closed. -/
structure Sound (pairing : Pairing) : Prop where
  lengths : ∀ side, (pairing.endpoint side).views.length = pairing.initiators.length
  registered : ∀ side link, pairing.view side link = some .connected →
    (pairing.endpoint side).entry = some (link, pairing.direction side link)
  arrived : ∀ side link, (pairing.endpoint side).entry.map Prod.fst = some link →
    pairing.view side link = some .connected ∨ pairing.view side link = some .closing
  closing : ∀ side link, pairing.view side link = some .closing →
    pairing.view side.other link = some .closed

/-- Some link of a kind is open at one side, and has not been closed by the other one. -/
def Alive (kind : ℕ → Prop) : Prop :=
  ∃ side link, kind link ∧ pairing.view side link = some .connected ∧
    pairing.view side.other link ≠ some .closed

/-- Some link of a kind has arrived at one side. -/
def Arrived (kind : ℕ → Prop) : Prop :=
  ∃ side link view, kind link ∧ pairing.view side link = some view ∧ view ≠ .unseen

variable {ids pairing}

section Preference

theorem other_other (side : Side) : side.other.other = side := by
  cases side <;> rfl

theorem other_ne (side : Side) : side.other ≠ side := by
  cases side <;> decide

theorem eq_other_of_ne {side other : Side} (different : side ≠ other) : side = other.other := by
  cases side <;> cases other <;> simp_all [Side.other]

theorem preferredDirection_eq (side : Side) :
    preferredDirection ids side =
      if side = preferredInitiator ids then .outbound else .inbound := by
  have distinct : JsText.units (ids.id .left) ≠ JsText.units (ids.id .right) := fun same =>
    ids.distinct (JsText.units_injective same)
  rcases lt_or_gt_of_ne distinct with below | above
  · have initiator : preferredInitiator ids = .left := if_pos below
    rw [initiator]
    cases side with
    | left => exact if_pos below
    | right => exact if_neg below.not_gt
  · have initiator : preferredInitiator ids = .right := if_neg above.not_gt
    rw [initiator]
    cases side with
    | left => exact if_neg above.not_gt
    | right => exact if_pos above

theorem direction_eq_preferred_iff (side : Side) {link : ℕ}
    (opened : link < pairing.initiators.length) :
    pairing.direction side link = preferredDirection ids side ↔ pairing.Preferred ids link := by
  rw [preferredDirection_eq]
  unfold direction Preferred
  rw [List.getElem?_eq_getElem opened]
  generalize pairing.initiators[link] = initiator
  generalize preferredInitiator ids = preferred
  cases side <;> cases initiator <;> cases preferred <;> decide

end Preference

section Views

variable {side : Side} {link : ℕ} {endpoint : Endpoint}

theorem view_update_own (other : ℕ) :
    (pairing.update side endpoint).view side other = endpoint.views[other]? := by
  simp [view, update]

theorem view_update_other (other : ℕ) :
    (pairing.update side endpoint).view side.other other = pairing.view side.other other := by
  simp [view, update, Function.update_of_ne (other_ne side)]

theorem length_of_view {view : LinkView} (sound : pairing.Sound)
    (seen : pairing.view side link = some view) : link < pairing.initiators.length := by
  rw [← sound.lengths side]
  exact (List.getElem?_eq_some_iff.mp seen).1

theorem forall_side_update {property : Side → Prop} (side : Side) (own : property side)
    (other : property side.other) : ∀ each, property each := by
  intro each
  by_cases same : each = side
  · rw [same]
    exact own
  · rw [eq_other_of_ne same]
    exact other

end Views

section Arrival

variable {side : Side} {link : ℕ}

/-- What the arrival of a link does. -/
inductive Arrival (ids : EndpointIds) (pairing : Pairing) (side : Side) (link : ℕ) :
    Pairing → Prop where
  | registered (free : ∀ existing, pairing.view side existing ≠ some .connected) :
      Arrival ids pairing side link (pairing.update side
        ⟨(pairing.endpoint side).views.set link .connected,
          some (link, pairing.direction side link)⟩)
  | closed (existing : ℕ) (connected : pairing.view side existing = some .connected)
      (preferred : pairing.Preferred ids link → pairing.Preferred ids existing)
      (kept : (pairing.endpoint side.other).entry.map Prod.fst = some link →
        pairing.view side.other existing ≠ some .closed) :
      Arrival ids pairing side link (pairing.update side
        ⟨(pairing.endpoint side).views.set link .closed, (pairing.endpoint side).entry⟩)
  | replaced (existing : ℕ) (connected : pairing.view side existing = some .connected)
      (preferred : pairing.Preferred ids link) (unpreferred : ¬pairing.Preferred ids existing) :
      Arrival ids pairing side link (pairing.update side
        ⟨((pairing.endpoint side).views.set link .connected).set existing .closed,
          some (link, pairing.direction side link)⟩)

theorem connectedEntry_setView (sound : pairing.Sound)
    (unseen : pairing.view side link = some .unseen) :
    ((pairing.endpoint side).setView link .connected).connectedEntry =
      (pairing.endpoint side).connectedEntry := by
  unfold Endpoint.connectedEntry Endpoint.setView
  cases entry : (pairing.endpoint side).entry with
  | none => rfl
  | some existing =>
      have different : existing.1 ≠ link := by
        rintro rfl
        rcases sound.arrived side existing.1 (by rw [entry]; rfl) with seen | seen <;>
          rw [unseen] at seen <;> cases seen
      simp only [Option.filter_some]
      rw [List.getElem?_set_ne (Ne.symm different)]

theorem connectedEntry_of_connected (sound : pairing.Sound) {existing : ℕ}
    (connected : pairing.view side existing = some .connected) :
    (pairing.endpoint side).connectedEntry = some (existing, pairing.direction side existing) := by
  unfold Endpoint.connectedEntry
  rw [sound.registered side existing connected]
  rw [Option.filter_some]
  exact if_pos (decide_eq_true connected)

theorem arrival (sound : pairing.Sound) (unseen : pairing.view side link = some .unseen)
    (allowed : pairing.NoMutualClose ids (.arrive side link)) :
    Arrival ids pairing side link (pairing.apply ids (.arrive side link)) := by
  have opened := length_of_view sound unseen
  have sameEntry := connectedEntry_setView sound unseen
  simp only [NoMutualClose, Endpoint.duplicate, sameEntry] at allowed
  simp only [apply, Endpoint.resolveDuplicatePeer, sameEntry]
  by_cases some_ : ∃ existing, pairing.view side existing = some .connected
  · rcases some_ with ⟨existing, connected⟩
    have found := connectedEntry_of_connected sound connected
    have different : existing ≠ link := by
      rintro rfl
      rw [unseen] at connected
      cases connected
    have existingOpened := length_of_view sound connected
    have direction := @direction_eq_preferred_iff ids _ side _ opened
    have existingDirection := @direction_eq_preferred_iff ids _ side _ existingOpened
    have entry := sound.registered side existing connected
    simp only [found, Option.map_some] at allowed ⊢
    by_cases replaces : pairing.direction side link = preferredDirection ids side ∧
        pairing.direction side existing ≠ preferredDirection ids side
    · rw [if_pos replaces]
      have result : (((pairing.endpoint side).setView link .connected).setEntry link
            (pairing.direction side link)).closePeer existing =
          ⟨((pairing.endpoint side).views.set link .connected).set existing .closed,
            some (link, pairing.direction side link)⟩ := by
        simp [Endpoint.closePeer, Endpoint.removeEntry, Endpoint.setEntry, Endpoint.setView,
          Ne.symm different]
      rw [result]
      exact .replaced existing connected (direction.mp replaces.1)
        (mt existingDirection.mpr replaces.2)
    · rw [if_neg replaces] at allowed ⊢
      have result : ((pairing.endpoint side).setView link .connected).closePeer link =
          ⟨(pairing.endpoint side).views.set link .closed, (pairing.endpoint side).entry⟩ := by
        simp [Endpoint.closePeer, Endpoint.removeEntry, Endpoint.setView, entry, different]
      rw [result]
      refine .closed existing connected ?_ ?_
      · intro preferred
        by_contra unpreferred
        exact replaces ⟨direction.mpr preferred, mt existingDirection.mp unpreferred⟩
      · intro registered
        exact allowed (link, existing) rfl registered
  · push Not at some_
    have nothing : (pairing.endpoint side).connectedEntry = none := by
      cases found : (pairing.endpoint side).connectedEntry with
      | none => rfl
      | some existing =>
          unfold Endpoint.connectedEntry at found
          rw [Option.filter_eq_some_iff] at found
          exact absurd (of_decide_eq_true found.2) (some_ existing.1)
    rw [nothing]
    exact .registered some_

end Arrival

section Preservation

variable {side : Side} {link : ℕ} {endpoint : Endpoint}

theorem Sound.update (sound : pairing.Sound)
    (length : endpoint.views.length = pairing.initiators.length)
    (registered : ∀ other, endpoint.views[other]? = some .connected →
      endpoint.entry = some (other, pairing.direction side other))
    (arrived : ∀ other, endpoint.entry.map Prod.fst = some other →
      endpoint.views[other]? = some .connected ∨ endpoint.views[other]? = some .closing)
    (closing : ∀ other, endpoint.views[other]? = some .closing →
      pairing.view side.other other = some .closed)
    (closed : ∀ other, pairing.view side other = some .closed →
      endpoint.views[other]? = some .closed) :
    (pairing.update side endpoint).Sound := by
  have ownEndpoint : (pairing.update side endpoint).endpoint side = endpoint := by
    simp [Pairing.update]
  have otherEndpoint : (pairing.update side endpoint).endpoint side.other =
      pairing.endpoint side.other := by
    simp [Pairing.update, Function.update_of_ne (other_ne side)]
  constructor
  case lengths =>
    refine forall_side_update side ?_ ?_
    · rw [ownEndpoint]
      exact length
    · rw [otherEndpoint]
      exact sound.lengths side.other
  case registered =>
    refine forall_side_update side ?_ ?_
    · intro other connected
      rw [view_update_own] at connected
      rw [ownEndpoint]
      exact registered other connected
    · intro other connected
      rw [view_update_other] at connected
      rw [otherEndpoint]
      exact sound.registered side.other other connected
  case arrived =>
    refine forall_side_update side ?_ ?_
    · intro other entry
      rw [ownEndpoint] at entry
      rw [view_update_own]
      exact arrived other entry
    · intro other entry
      rw [otherEndpoint] at entry
      rw [view_update_other]
      exact sound.arrived side.other other entry
  case closing =>
    refine forall_side_update side ?_ ?_
    · intro other isClosing
      rw [view_update_own] at isClosing
      rw [view_update_other]
      exact closing other isClosing
    · intro other isClosing
      rw [view_update_other] at isClosing
      have before := sound.closing side.other other isClosing
      rw [other_other] at before ⊢
      rw [view_update_own]
      exact closed other before

theorem Sound.arrive {after : Pairing} (sound : pairing.Sound)
    (unseen : pairing.view side link = some .unseen)
    (arrives : Arrival ids pairing side link after) : after.Sound := by
  have notClosed : ∀ {other : ℕ}, pairing.view side other = some .closed → other ≠ link := by
    rintro other isClosed rfl
    rw [unseen] at isClosed
    cases isClosed
  have entryDifferent : ∀ {other : ℕ},
      (pairing.endpoint side).entry.map Prod.fst = some other → other ≠ link := by
    rintro other entry rfl
    rcases sound.arrived side other entry with seen | seen <;> rw [unseen] at seen <;> cases seen
  cases arrives with
  | registered free =>
      refine sound.update (by simp [sound.lengths]) ?_ ?_ ?_ ?_
      · intro other connected
        rcases getElem?_set_cases connected with ⟨rfl, -⟩ | ⟨-, before⟩
        · rfl
        · exact absurd before (free other)
      · rintro other ⟨⟩
        exact .inl (getElem?_set_of_some unseen)
      · intro other isClosing
        rcases getElem?_set_cases isClosing with ⟨-, impossible⟩ | ⟨-, before⟩
        · cases impossible
        · exact sound.closing side other before
      · intro other isClosed
        exact getElem?_set_of_ne isClosed (notClosed isClosed)
  | closed existing connected preferred kept =>
      refine sound.update (by simp [sound.lengths]) ?_ ?_ ?_ ?_
      · intro other otherConnected
        rcases getElem?_set_cases otherConnected with ⟨-, impossible⟩ | ⟨-, before⟩
        · cases impossible
        · exact sound.registered side other before
      · intro other entry
        rcases sound.arrived side other entry with seen | seen
        · exact .inl (getElem?_set_of_ne seen (entryDifferent entry))
        · exact .inr (getElem?_set_of_ne seen (entryDifferent entry))
      · intro other isClosing
        rcases getElem?_set_cases isClosing with ⟨-, impossible⟩ | ⟨-, before⟩
        · cases impossible
        · exact sound.closing side other before
      · intro other isClosed
        exact getElem?_set_of_ne isClosed (notClosed isClosed)
  | replaced existing connected preferred unpreferred =>
      have entry := sound.registered side existing connected
      have different : link ≠ existing := by
        rintro rfl
        exact unpreferred preferred
      refine sound.update (by simp [sound.lengths]) ?_ ?_ ?_ ?_
      · intro other otherConnected
        rcases getElem?_set_cases otherConnected with ⟨-, impossible⟩ | ⟨otherExisting, inner⟩
        · cases impossible
        · rcases getElem?_set_cases inner with ⟨rfl, -⟩ | ⟨-, before⟩
          · rfl
          · have registered := sound.registered side other before
            rw [entry, Option.some.injEq, Prod.mk.injEq] at registered
            exact absurd registered.1.symm otherExisting
      · rintro other ⟨⟩
        exact .inl (getElem?_set_of_ne (getElem?_set_of_some unseen) different)
      · intro other isClosing
        rcases getElem?_set_cases isClosing with ⟨-, impossible⟩ | ⟨-, inner⟩
        · cases impossible
        · rcases getElem?_set_cases inner with ⟨-, impossible⟩ | ⟨-, before⟩
          · cases impossible
          · exact sound.closing side other before
      · intro other isClosed
        by_cases same : other = existing
        · subst same
          rw [connected] at isClosed
          cases isClosed
        · exact getElem?_set_of_ne (getElem?_set_of_ne isClosed (notClosed isClosed)) same

theorem Sound.receiveClose (sound : pairing.Sound)
    (connected : pairing.view side link = some .connected)
    (closedThere : pairing.view side.other link = some .closed) :
    (pairing.apply ids (.receiveClose side link)).Sound := by
  have entry := sound.registered side link connected
  refine sound.update (by simp [Endpoint.setView, sound.lengths]) ?_ ?_ ?_ ?_
  · intro other otherConnected
    rcases getElem?_set_cases otherConnected with ⟨-, impossible⟩ | ⟨-, before⟩
    · cases impossible
    · exact sound.registered side other before
  · intro other registered
    have sameLink : link = other := by
      simpa [Endpoint.setView, entry] using registered
    subst sameLink
    exact .inr (getElem?_set_of_some connected)
  · intro other isClosing
    rcases getElem?_set_cases isClosing with ⟨rfl, -⟩ | ⟨-, before⟩
    · exact closedThere
    · exact sound.closing side other before
  · intro other isClosed
    refine getElem?_set_of_ne isClosed ?_
    rintro rfl
    rw [connected] at isClosed
    cases isClosed

theorem Sound.closeEvent (sound : pairing.Sound)
    (isClosing : pairing.view side link = some .closing) :
    (pairing.apply ids (.closeEvent side link)).Sound := by
  have views : ((pairing.endpoint side).closePeer link).views =
      (pairing.endpoint side).views.set link .closed := by
    unfold Endpoint.closePeer Endpoint.removeEntry
    split <;> rfl
  have entry : ∀ other, ((pairing.endpoint side).closePeer link).entry.map Prod.fst = some other →
      (pairing.endpoint side).entry.map Prod.fst = some other ∧ other ≠ link := by
    intro other
    unfold Endpoint.closePeer Endpoint.removeEntry
    split
    · intro impossible
      cases impossible
    · rename_i different
      intro registered
      refine ⟨registered, ?_⟩
      rintro rfl
      exact different registered
  refine sound.update (by simp [views, sound.lengths]) ?_ ?_ ?_ ?_
  · intro other connected
    rw [views] at connected
    rcases getElem?_set_cases connected with ⟨-, impossible⟩ | ⟨different, before⟩
    · cases impossible
    · have registered := sound.registered side other before
      unfold Endpoint.closePeer Endpoint.removeEntry
      split
      · rename_i same
        simp only [Endpoint.setView, registered, Option.map_some, Option.some.injEq] at same
        exact absurd same different
      · exact registered
  · intro other registered
    rcases entry other registered with ⟨before, different⟩
    rw [views]
    rcases sound.arrived side other before with seen | seen
    · exact .inl (getElem?_set_of_ne seen different)
    · exact .inr (getElem?_set_of_ne seen different)
  · intro other otherClosing
    rw [views] at otherClosing
    rcases getElem?_set_cases otherClosing with ⟨-, impossible⟩ | ⟨-, before⟩
    · cases impossible
    · exact sound.closing side other before
  · intro other isClosed
    rw [views]
    by_cases same : other = link
    · subst same
      exact getElem?_set_of_some isClosing
    · exact getElem?_set_of_ne isClosed same

theorem view_connect (initiator side : Side) (link : ℕ) :
    (pairing.apply ids (.connect initiator)).view side link =
      ((pairing.endpoint side).views ++ [.unseen])[link]? := rfl

theorem direction_connect (sound : pairing.Sound) (initiator : Side) {view : LinkView}
    (seen : pairing.view side link = some view) :
    (pairing.apply ids (.connect initiator)).direction side link = pairing.direction side link := by
  have same : (pairing.apply ids (.connect initiator)).initiators[link]? =
      pairing.initiators[link]? := List.getElem?_append_left (length_of_view sound seen)
  unfold direction
  rw [same]

theorem view_of_connect {initiator : Side} {view : LinkView}
    (seen : (pairing.apply ids (.connect initiator)).view side link = some view)
    (notUnseen : view ≠ .unseen) : pairing.view side link = some view := by
  rw [view_connect] at seen
  rcases getElem?_append_singleton_cases seen with before | ⟨-, rfl⟩
  · exact before
  · exact absurd rfl notUnseen

theorem Sound.connect (sound : pairing.Sound) (initiator : Side) :
    (pairing.apply ids (.connect initiator)).Sound := by
  constructor
  case lengths =>
    intro side
    simp [Pairing.apply, sound.lengths]
  case registered =>
    intro side link connected
    have before := view_of_connect connected (by decide)
    rw [direction_connect sound initiator before]
    exact sound.registered side link before
  case arrived =>
    intro side link entry
    rcases sound.arrived side link entry with seen | seen
    · exact .inl (getElem?_append_of_some seen _)
    · exact .inr (getElem?_append_of_some seen _)
  case closing =>
    intro side link isClosing
    have before := view_of_connect isClosing (by decide)
    exact getElem?_append_of_some (sound.closing side link before) _

end Preservation

section Survival

variable {side : Side} {link : ℕ} {endpoint : Endpoint} {kind : ℕ → Prop}

theorem Alive.update (alive : pairing.Alive kind)
    (own : ∀ other, kind other → pairing.view side other = some .connected →
      pairing.view side.other other ≠ some .closed → endpoint.views[other]? = some .connected)
    (others : ∀ other, kind other → pairing.view side.other other = some .connected →
      pairing.view side other ≠ some .closed → endpoint.views[other]? ≠ some .closed) :
    (pairing.update side endpoint).Alive kind := by
  rcases alive with ⟨holder, survivor, isKind, connected, unclosed⟩
  by_cases same : holder = side
  · subst same
    refine ⟨holder, survivor, isKind, ?_, ?_⟩
    · rw [view_update_own]
      exact own survivor isKind connected unclosed
    · rw [view_update_other]
      exact unclosed
  · have isOther := eq_other_of_ne same
    subst isOther
    rw [other_other] at unclosed
    refine ⟨side.other, survivor, isKind, ?_, ?_⟩
    · rw [view_update_other]
      exact connected
    · rw [other_other, view_update_own]
      exact others survivor isKind connected unclosed

theorem alive_of_first (isKind : kind link) (first : ¬pairing.Arrived kind)
    (connected : endpoint.views[link]? = some .connected) :
    (pairing.update side endpoint).Alive kind := by
  refine ⟨side, link, isKind, ?_, ?_⟩
  · rw [view_update_own]
    exact connected
  · rw [view_update_other]
    intro isClosed
    exact first ⟨side.other, link, .closed, isKind, isClosed, by decide⟩

theorem Arrived.of_update {after : Pairing} (arrived : after.Arrived kind)
    (unchanged : ∀ each other view, other ≠ link → after.view each other = some view →
      view ≠ .unseen → pairing.view each other = some .connected ∨
        pairing.view each other = some view)
    (unrelated : ¬kind link) : pairing.Arrived kind := by
  rcases arrived with ⟨each, other, view, isKind, seen, notUnseen⟩
  have different : other ≠ link := by
    rintro rfl
    exact unrelated isKind
  rcases unchanged each other view different seen notUnseen with before | before
  · exact ⟨each, other, .connected, isKind, before, by decide⟩
  · exact ⟨each, other, view, isKind, before, notUnseen⟩

/-- Once a link of the kind has arrived somewhere, some link of the kind is alive. -/
def Survives (pairing : Pairing) (kind : ℕ → Prop) : Prop :=
  pairing.Arrived kind → pairing.Alive kind

section Arriving

variable (sound : pairing.Sound) (unseen : pairing.view side link = some .unseen)
  (survives : pairing.Survives kind)

include unseen survives

theorem survives_registered (free : ∀ existing, pairing.view side existing ≠ some .connected)
    (entry : Option (ℕ × Direction)) :
    (pairing.update side
      ⟨(pairing.endpoint side).views.set link .connected, entry⟩).Survives kind := by
  intro arrived
  by_cases before : pairing.Arrived kind
  · refine (survives before).update ?_ ?_
    · intro other _ connected
      exact absurd connected (free other)
    · intro other _ _ unclosed isClosed
      rcases getElem?_set_cases isClosed with ⟨-, impossible⟩ | ⟨-, already⟩
      · cases impossible
      · exact unclosed already
  · by_cases isKind : kind link
    · exact alive_of_first isKind before (getElem?_set_of_some unseen)
    · refine absurd (arrived.of_update ?_ isKind) before
      refine forall_side_update side ?_ ?_
      · intro other view different seen _
        rw [view_update_own] at seen
        rcases getElem?_set_cases seen with ⟨same, -⟩ | ⟨-, already⟩
        · exact absurd same different
        · exact .inr already
      · intro other view _ seen _
        rw [view_update_other] at seen
        exact .inr seen

include sound in
theorem survives_closed {existing : ℕ}
    (connected : pairing.view side existing = some .connected)
    (kept : (pairing.endpoint side.other).entry.map Prod.fst = some link →
      pairing.view side.other existing ≠ some .closed)
    (sameKind : kind link → kind existing) (entry : Option (ℕ × Direction)) :
    (pairing.update side
      ⟨(pairing.endpoint side).views.set link .closed, entry⟩).Survives kind := by
  intro arrived
  have different : existing ≠ link := by
    rintro rfl
    rw [unseen] at connected
    cases connected
  have before : pairing.Arrived kind := by
    by_cases isKind : kind link
    · exact ⟨side, existing, .connected, sameKind isKind, connected, by decide⟩
    · refine arrived.of_update ?_ isKind
      refine forall_side_update side ?_ ?_
      · intro other view otherDifferent seen _
        rw [view_update_own] at seen
        rcases getElem?_set_cases seen with ⟨same, -⟩ | ⟨-, already⟩
        · exact absurd same otherDifferent
        · exact .inr already
      · intro other view _ seen _
        rw [view_update_other] at seen
        exact .inr seen
  by_cases chosen : kind link ∧ pairing.view side.other link = some .connected
  · refine ⟨side, existing, sameKind chosen.1, ?_, ?_⟩
    · rw [view_update_own]
      exact getElem?_set_of_ne connected different
    · rw [view_update_other]
      refine kept ?_
      rw [sound.registered side.other link chosen.2]
      rfl
  · refine (survives before).update ?_ ?_
    · intro other _ otherConnected _
      refine getElem?_set_of_ne otherConnected ?_
      rintro rfl
      rw [unseen] at otherConnected
      cases otherConnected
    · intro other isKind otherConnected unclosed isClosed
      rcases getElem?_set_cases isClosed with ⟨rfl, -⟩ | ⟨-, already⟩
      · exact chosen ⟨isKind, otherConnected⟩
      · exact unclosed already

theorem survives_replaced {existing : ℕ}
    (isKind : kind link) (otherKind : ¬kind existing) (entry : Option (ℕ × Direction)) :
    (pairing.update side
      ⟨((pairing.endpoint side).views.set link .connected).set existing .closed,
        entry⟩).Survives kind := by
  intro _
  have different : link ≠ existing := by
    rintro rfl
    exact otherKind isKind
  by_cases before : pairing.Arrived kind
  · refine (survives before).update ?_ ?_
    · intro other otherIsKind connected _
      have notExisting : other ≠ existing := by
        rintro rfl
        exact otherKind otherIsKind
      refine getElem?_set_of_ne (getElem?_set_of_ne connected ?_) notExisting
      rintro rfl
      rw [unseen] at connected
      cases connected
    · intro other otherIsKind _ unclosed isClosed
      rcases getElem?_set_cases isClosed with ⟨rfl, -⟩ | ⟨-, inner⟩
      · exact otherKind otherIsKind
      · rcases getElem?_set_cases inner with ⟨-, impossible⟩ | ⟨-, already⟩
        · cases impossible
        · exact unclosed already
  · exact alive_of_first isKind before
      (getElem?_set_of_ne (getElem?_set_of_some unseen) different)

end Arriving

/-- Preferred links survive, and so do links of any kind. -/
structure Surviving (ids : EndpointIds) (pairing : Pairing) : Prop where
  preferred : pairing.Survives (pairing.Preferred ids)
  any : pairing.Survives fun _ => True

theorem Surviving.arrive {after : Pairing} (sound : pairing.Sound)
    (surviving : pairing.Surviving ids) (unseen : pairing.view side link = some .unseen)
    (arrives : Arrival ids pairing side link after) : after.Surviving ids := by
  cases arrives with
  | registered free =>
      exact ⟨survives_registered unseen surviving.preferred free _,
        survives_registered unseen surviving.any free _⟩
  | closed existing connected preferred kept =>
      exact ⟨survives_closed sound unseen surviving.preferred connected kept preferred _,
        survives_closed sound unseen surviving.any connected kept (fun _ => trivial) _⟩
  | replaced existing connected preferred unpreferred =>
      have best := survives_replaced unseen surviving.preferred preferred unpreferred
        (some (link, pairing.direction side link))
      refine ⟨best, fun _ => ?_⟩
      have different : link ≠ existing := by
        rintro rfl
        exact unpreferred preferred
      have arrived : (pairing.update side
          ⟨((pairing.endpoint side).views.set link .connected).set existing .closed,
            some (link, pairing.direction side link)⟩).Arrived (pairing.Preferred ids) := by
        refine ⟨side, link, .connected, preferred, ?_, by decide⟩
        rw [view_update_own]
        exact getElem?_set_of_ne (getElem?_set_of_some unseen) different
      rcases best arrived with ⟨holder, survivor, -, alive⟩
      exact ⟨holder, survivor, trivial, alive⟩

theorem survives_observed (survives : pairing.Survives kind) {observed : LinkView}
    (seen : ∃ view, pairing.view side link = some view ∧ view ≠ .unseen)
    (closedThere : pairing.view side.other link = some .closed)
    (views : endpoint.views = (pairing.endpoint side).views.set link observed) :
    (pairing.update side endpoint).Survives kind := by
  intro arrived
  have before : pairing.Arrived kind := by
    rcases arrived with ⟨each, other, view, isKind, otherSeen, notUnseen⟩
    rcases seen with ⟨already, alreadySeen, alreadyArrived⟩
    by_cases same : each = side
    · subst same
      rw [view_update_own, views] at otherSeen
      rcases getElem?_set_cases otherSeen with ⟨rfl, -⟩ | ⟨-, unchanged⟩
      · exact ⟨each, other, already, isKind, alreadySeen, alreadyArrived⟩
      · exact ⟨each, other, view, isKind, unchanged, notUnseen⟩
    · have isOther := eq_other_of_ne same
      subst isOther
      rw [view_update_other] at otherSeen
      exact ⟨side.other, other, view, isKind, otherSeen, notUnseen⟩
  refine (survives before).update ?_ ?_
  · intro other _ connected unclosed
    rw [views]
    refine getElem?_set_of_ne connected ?_
    rintro rfl
    exact unclosed closedThere
  · intro other _ otherConnected unclosed isClosed
    rw [views] at isClosed
    rcases getElem?_set_cases isClosed with ⟨rfl, -⟩ | ⟨-, already⟩
    · rw [closedThere] at otherConnected
      cases otherConnected
    · exact unclosed already

end Survival

section Runs

/-- What every run without a mutual close keeps. -/
structure Invariant (ids : EndpointIds) (pairing : Pairing) : Prop where
  sound : pairing.Sound
  surviving : pairing.Surviving ids

theorem Invariant.start : Invariant ids start := by
  refine ⟨⟨?_, ?_, ?_, ?_⟩, ⟨?_, ?_⟩⟩
  · exact fun _ => rfl
  · intro side link seen
    cases seen
  · intro side link entry
    cases entry
  · intro side link seen
    cases seen
  · rintro ⟨side, link, view, -, seen, -⟩
    cases seen
  · rintro ⟨side, link, view, -, seen, -⟩
    cases seen

theorem Surviving.connect (sound : pairing.Sound) (surviving : pairing.Surviving ids)
    (initiator : Side) : (pairing.apply ids (.connect initiator)).Surviving ids := by
  have sameKind : ∀ {side : Side} {link : ℕ} {view : LinkView},
      pairing.view side link = some view →
        ((pairing.apply ids (.connect initiator)).Preferred ids link ↔
          pairing.Preferred ids link) := by
    intro side link view seen
    have same : (pairing.apply ids (.connect initiator)).initiators[link]? =
        pairing.initiators[link]? := List.getElem?_append_left (length_of_view sound seen)
    unfold Preferred
    rw [same]
  have keeps : ∀ {kind afterwards : ℕ → Prop},
      (∀ side link view, pairing.view side link = some view → (afterwards link ↔ kind link)) →
        pairing.Survives kind →
          (pairing.apply ids (.connect initiator)).Survives afterwards := by
    rintro kind afterwards same survives ⟨side, link, view, isKind, seen, notUnseen⟩
    have before := view_of_connect seen notUnseen
    rcases survives ⟨side, link, view, (same side link view before).mp isKind, before, notUnseen⟩
      with ⟨holder, survivor, survivorKind, connected, unclosed⟩
    refine ⟨holder, survivor, (same _ _ _ connected).mpr survivorKind,
      getElem?_append_of_some connected _, ?_⟩
    intro isClosed
    exact unclosed (view_of_connect isClosed (by decide))
  exact ⟨keeps (fun _ _ _ seen => sameKind seen) surviving.preferred,
    keeps (fun _ _ _ _ => Iff.rfl) surviving.any⟩

theorem Invariant.apply (invariant : pairing.Invariant ids) {step : PairingStep}
    (enabled : pairing.Enabled step) (allowed : pairing.NoMutualClose ids step) :
    (pairing.apply ids step).Invariant ids := by
  rcases invariant with ⟨sound, surviving⟩
  cases step with
  | connect initiator => exact ⟨sound.connect initiator, surviving.connect sound initiator⟩
  | arrive side link =>
      have arrives := arrival sound enabled allowed
      exact ⟨sound.arrive enabled arrives, surviving.arrive sound enabled arrives⟩
  | refuse side link => exact allowed.elim
  | receiveClose side link =>
      rcases enabled with ⟨connected, closedThere⟩
      have seen : ∃ view, pairing.view side link = some view ∧ view ≠ .unseen :=
        ⟨.connected, connected, by decide⟩
      exact ⟨sound.receiveClose connected closedThere,
        survives_observed surviving.preferred seen closedThere rfl,
        survives_observed surviving.any seen closedThere rfl⟩
  | closeEvent side link =>
      have closedThere := sound.closing side link enabled
      have seen : ∃ view, pairing.view side link = some view ∧ view ≠ .unseen :=
        ⟨.closing, enabled, by decide⟩
      have views : ((pairing.endpoint side).closePeer link).views =
          (pairing.endpoint side).views.set link .closed := by
        unfold Endpoint.closePeer Endpoint.removeEntry
        split <;> rfl
      exact ⟨sound.closeEvent enabled,
        survives_observed surviving.preferred seen closedThere views,
        survives_observed surviving.any seen closedThere views⟩

theorem invariant_of_reachable
    (reachable : ((system ids).restrict (NoMutualClose ids)).Reachable pairing) :
    pairing.Invariant ids := by
  refine reachable.invariant (Invariant ids) ?_ ?_
  · rintro _ rfl
    exact .start
  · rintro before step _ - invariant ⟨allowed, enabled, rfl⟩
    exact invariant.apply enabled allowed

/-- Duplicate links converge in every run in which no link is refused and no side closes the
registered link of the other one in favour of a link that the other one has closed. -/
theorem duplicates_converge
    (reachable : ((system ids).restrict (NoMutualClose ids)).Reachable pairing)
    (opened : pairing.initiators ≠ []) (quiescent : pairing.Quiescent) : pairing.Converged := by
  rcases invariant_of_reachable reachable with ⟨sound, surviving⟩
  have first : 0 < (pairing.endpoint .left).views.length := by
    rw [sound.lengths]
    exact List.length_pos_iff.mpr opened
  have firstSeen : pairing.view .left 0 = some (pairing.endpoint .left).views[0] :=
    List.getElem?_eq_getElem first
  have arrived : pairing.Arrived fun _ => True :=
    ⟨.left, 0, _, trivial, firstSeen, (quiescent _ _ _ firstSeen).1⟩
  rcases surviving.any arrived with ⟨side, link, -, connected, unclosed⟩
  have opening := length_of_view sound connected
  rw [← sound.lengths side.other] at opening
  have otherSeen : pairing.view side.other link = some (pairing.endpoint side.other).views[link] :=
    List.getElem?_eq_getElem opening
  have otherConnected : pairing.view side.other link = some .connected := by
    rcases quiescent _ _ _ otherSeen with ⟨notUnseen, notClosing, -⟩
    cases view : (pairing.endpoint side.other).views[link] with
    | unseen => exact absurd view notUnseen
    | connected => rw [otherSeen, view]
    | closing => exact absurd view notClosing
    | closed =>
        rw [otherSeen, view] at unclosed
        exact absurd rfl unclosed
  refine ⟨link, forall_side_update side ⟨connected, ?_⟩ ⟨otherConnected, ?_⟩⟩
  · rw [sound.registered side link connected]
    rfl
  · rw [sound.registered side.other link otherConnected]
    rfl

/-- Endpoints with two ids. -/
def sampleIds : EndpointIds where
  id side := if side = .left then "a" else "b"
  distinct := by decide

/-- Decides whether all events have been delivered. -/
def isQuiescent (pairing : Pairing) : Bool :=
  (List.range pairing.initiators.length).all fun link =>
    [Side.left, Side.right].all fun side =>
      match pairing.view side link with
      | some .connected => pairing.view side.other link ≠ some .closed
      | some .closed => true
      | _ => false

theorem quiescent_of_isQuiescent (sound : ∀ side,
    (pairing.endpoint side).views.length = pairing.initiators.length)
    (checked : isQuiescent pairing = true) : pairing.Quiescent := by
  intro side link view seen
  have below : link < pairing.initiators.length := by
    rw [← sound side]
    exact (List.getElem?_eq_some_iff.mp seen).1
  have sides : side ∈ [Side.left, Side.right] := by cases side <;> decide
  have both := List.all_eq_true.mp
    (List.all_eq_true.mp checked link (List.mem_range.mpr below)) side sides
  rw [seen] at both
  cases view with
  | connected => exact ⟨by decide, by decide, fun _ => of_decide_eq_true both⟩
  | closed => exact ⟨by decide, by decide, fun impossible => by cases impossible⟩
  | unseen => cases both
  | closing => cases both

/-- Two links of the left side arrive in the other order, and each side closes the link that the
other one has kept. -/
def crossedSteps : List PairingStep :=
  [.connect .left, .connect .left, .arrive .right 1, .arrive .right 0, .arrive .left 0,
    .arrive .left 1, .receiveClose .left 0, .closeEvent .left 0, .receiveClose .right 1,
    .closeEvent .right 1]

theorem duplicates_diverge :
    ∃ pairing, (system sampleIds).Reachable pairing ∧ pairing.initiators ≠ [] ∧
      pairing.Quiescent ∧ ¬pairing.Converged := by
  refine ⟨crossedSteps.foldl (apply sampleIds) start, ?_, by decide, ?_, ?_⟩
  · refine (TransitionSystem.Reachable.start rfl).follow (apply sampleIds) Enabled ?_ ?_
    · intro before step enabled
      exact ⟨enabled, rfl⟩
    · decide +kernel
  · refine quiescent_of_isQuiescent ?_ (by decide +kernel)
    intro side
    cases side <;> decide +kernel
  · rintro ⟨link, converged⟩
    have entry : ((crossedSteps.foldl (apply sampleIds) start).endpoint .left).entry = none := by
      decide +kernel
    have registered := (converged .left).2
    rw [entry] at registered
    cases registered

/-- Each side opens a link, and a third one follows. -/
def convergingSteps : List PairingStep :=
  [.connect .right, .connect .left, .arrive .left 0, .arrive .right 0, .arrive .right 1,
    .arrive .left 1, .connect .left, .arrive .right 2, .arrive .left 2]

theorem duplicates_converge_sample :
    (convergingSteps.foldl (apply sampleIds) start).Converged := by
  refine @duplicates_converge sampleIds _ ?_ (by decide) ?_
  · have initially : ((system sampleIds).restrict (NoMutualClose sampleIds)).Reachable start :=
      TransitionSystem.Reachable.start rfl
    refine initially.follow (apply sampleIds)
      (fun pairing step => pairing.NoMutualClose sampleIds step ∧ pairing.Enabled step) ?_ ?_
    · rintro before step ⟨allowed, enabled⟩
      exact ⟨allowed, enabled, rfl⟩
    · decide +kernel
  · refine quiescent_of_isQuiescent ?_ (by decide +kernel)
    intro side
    cases side <;> decide +kernel

end Runs

end Pairing

end ServerFoundation.MeshLink
