import InternTradingGame.Exchange.VenueProjection

/-!
# The history of a venue

The heap remembers every order which has been taken in, and no operation of
the venue reads this history.  So venues which differ in it alone do the
same, and the orders of an id which is not in use can be dropped from it.
-/

namespace InternTradingGame

open Effects

/-! ## Venues which differ in their history -/

/-- The view which shows everything there is. -/
def View.complete : View where
  inside _ := true
  mine := Set.univ
  seen _ := true
  seen_inside _ _ := rfl

/-- The venues show the same, whatever orders they remember. -/
abbrev SameRecords (left right : ExchangeVenue) : Prop :=
  ExchangeVenue.Projects View.complete Set.univ left right

/-- The venue with another history. -/
def ExchangeVenue.withOrders (venue : ExchangeVenue)
    (orders : List Order) : ExchangeVenue :=
  { venue with
    market :=
      { venue.market with heap := { venue.market.heap with orders } } }

section Records

variable {left right : ExchangeVenue}

theorem View.complete_covers {entry : String × List Order}
    (inside : ∀ order ∈ entry.2, order.instrumentId = entry.1) :
    View.complete.Covers Set.univ entry :=
  fun order member => ⟨inside order member, trivial⟩

theorem SameRecords.refl (shape : VenueShape left) :
    SameRecords left left where
  market :=
    { heap := Heap.Alike.refl _
      keys := rfl
      books := fun _ _ => rfl
      named := shape.market.named
      within := fun _ _ _ _ _ _ _ _ _ => trivial
      outside := by
        intro instrumentId book outside
        cases outside
      bare := by
        intro instrumentId book outside
        cases outside }
  instruments := rfl
  known := fun _ _ => Iff.rfl
  phase := rfl
  last := rfl
  pending := (left.pendingOrders.keepKeys_of_forall fun _ => rfl).symm
  covers := by
    intro entry member
    apply View.complete_covers
    intro order inEntry
    exact (shape.pending _ _
      ((left.pendingOrders.get?_eq_some_iff _ _).mpr member) order
        inEntry).1

/-- Another history makes no difference. -/
theorem SameRecords.withOrders (same : SameRecords left right)
    (orders : List Order) : SameRecords (left.withOrders orders) right :=
  { same with
    market :=
      { same.market with
        heap := ⟨same.market.heap.remaining, same.market.heap.trades⟩ } }

theorem SameRecords.orderBooks (same : SameRecords left right) :
    left.market.orderBooks = right.market.orderBooks :=
  OrderedDict.ext_get? same.market.keys
    fun instrumentId => same.market.books instrumentId rfl

theorem SameRecords.allOrderIds (same : SameRecords left right) :
    left.allOrderIds = right.allOrderIds :=
  Finset.ext fun orderId => same.known orderId trivial

theorem SameRecords.pendingOrders (same : SameRecords left right) :
    left.pendingOrders = right.pendingOrders :=
  (left.pendingOrders.keepKeys_of_forall fun _ => rfl).symm.trans
    same.pending.symm

/-- The venues differ in nothing but their history. -/
theorem SameRecords.eq_withOrders (same : SameRecords left right) :
    right = left.withOrders right.market.heap.orders := by
  have remaining : right.market.heap.remainingQuantity =
      left.market.heap.remainingQuantity :=
    funext fun orderId =>
      (same.market.heap.remaining orderId trivial).symm
  have trades : right.market.heap.trades = left.market.heap.trades := by
    have all : ∀ trades : List Trade,
        trades.filter View.complete.seen = trades :=
      fun trades => List.filter_eq_self.mpr fun _ _ => rfl
    have seen := same.market.heap.trades
    rw [all, all] at seen
    exact seen.symm
  have books := same.orderBooks
  have ids := same.allOrderIds
  have pending := same.pendingOrders
  have instruments := same.instruments
  have phase := same.phase
  have last := same.last
  rcases right with ⟨⟨⟨_, orders, _⟩, _⟩, _, _, _, _, _⟩
  simp only at remaining trades books ids pending instruments phase last
  subst remaining trades books ids pending instruments phase last
  rfl

end Records

/-! ## Calls on both venues -/

/-- Both calls return or both raise, and the venues show the same again. -/
structure EndsAlike {α : Type}
    (first second : EStateM.Result PyError ExchangeVenue α) : Prop where
  returns_iff : returned first = none ↔ returned second = none
  states : SameRecords (finalState first) (finalState second)

section Calls

variable {α : Type} {left right : ExchangeVenue} {draw : String → ℚ}

theorem EndsAlike.of_lockstep {first second : VenueM α}
    (lockstep : Lockstep SameRecords first second left right) :
    EndsAlike (first left) (second right) := by
  refine ⟨?_, lockstep.finalState⟩
  cases evaluated : first left with
  | ok value reached =>
      rcases lockstep.elim_ok evaluated with ⟨other, ends, _⟩
      rw [ends]
      exact Iff.rfl
  | error raised reached =>
      rcases lockstep.elim_error evaluated with ⟨other, ends, _⟩
      rw [ends]
      exact Iff.rfl

namespace SameRecords

/-- Both venues register an order object. -/
theorem registerObject (same : SameRecords left right) (order : Order)
    (quantity : ℚ) :
    SameRecords (left.registerObject order quantity)
      (right.registerObject order quantity) :=
  (same.register_wider (Set.subset_univ _)
    (fun _ _ => Or.inr trivial)).setLeft_both quantity

theorem submitObject (same : SameRecords left right) (order : Order)
    (quantity : ℚ) :
    Lockstep SameRecords (ExchangeVenue.submitObject order quantity)
      (ExchangeVenue.submitObject order quantity) left right :=
  same.submitObject_lockstep same rfl (Set.mem_univ _) (Set.mem_univ _)
    (same.registerObject order quantity) fun _ _ states _ => states

theorem cancelOrder (same : SameRecords left right)
    (orderId traderId : String) :
    Lockstep SameRecords (ExchangeVenue.cancelOrder orderId traderId)
      (ExchangeVenue.cancelOrder orderId traderId) left right :=
  same.cancelOrder_both (Set.subset_univ _) trivial

/-- Both venues match the collected orders. -/
theorem matchBatchOrders (same : SameRecords left right) :
    Lockstep
      (BatchContext.Projects View.complete Set.univ)
      (BatchMatchingEngine.matchBatchOrders draw left.pendingOrders)
      (BatchMatchingEngine.matchBatchOrders draw right.pendingOrders)
      { market := left.market, results := ∅ }
      { market := right.market, results := ∅ } := by
  rw [← same.pendingOrders]
  exact Lockstep.forM
    (fun collected member _ _ states =>
      states.matchInstrument_both draw (same.covers collected member) rfl)
    ⟨same.market, fun _ _ => rfl⟩

/-- Both venues run their batch. -/
theorem runBatchEngine (same : SameRecords left right) :
    EndsAlike (ExchangeVenue.runBatchEngine draw left)
      (ExchangeVenue.runBatchEngine draw right) := by
  have lockstep := @matchBatchOrders left right draw same
  have all : left.pendingOrders.entries.filter
      (fun collected => View.complete.inside collected.1) =
        right.pendingOrders.entries := by
    rw [same.pendingOrders]
    exact List.filter_eq_self.mpr fun _ _ => rfl
  rw [runBatchEngine_apply, runBatchEngine_apply,
    BatchMatchingEngine.runBatch, BatchMatchingEngine.runBatch,
    bind_apply, bind_apply]
  cases matched : BatchMatchingEngine.matchBatchOrders draw
      left.pendingOrders { market := left.market, results := ∅ } with
  | error raised reached =>
      rcases lockstep.elim_error matched with ⟨other, otherMatched, states⟩
      rw [otherMatched]
      exact ⟨Iff.rfl, { same with market := states.market }⟩
  | ok value reached =>
      rcases lockstep.elim_ok matched with ⟨other, otherMatched, states⟩
      rw [otherMatched]
      have finals := BatchContext.Projects.finalizeResults_projects
        (Set.subset_univ _) same.covers states
      rw [all] at finals
      refine ⟨iff_of_false (Option.some_ne_none _)
        (Option.some_ne_none _), ?_⟩
      exact
        { same with
          market := finals.market
          pending := rfl
          covers := by
            intro collected member
            exact absurd member List.not_mem_nil }

theorem executeOpeningAuction (same : SameRecords left right) :
    EndsAlike (ExchangeVenue.executeOpeningAuction draw left)
      (ExchangeVenue.executeOpeningAuction draw right) := by
  have batch := @runBatchEngine left right draw same
  rw [ExchangeVenue.executeOpeningAuction, bind_apply, bind_apply]
  cases first : ExchangeVenue.runBatchEngine draw left with
  | ok value reached =>
      rw [first] at batch
      cases second : ExchangeVenue.runBatchEngine draw right with
      | ok otherValue other =>
          rw [second] at batch
          exact ⟨iff_of_false (Option.some_ne_none _)
            (Option.some_ne_none _), batch.states⟩
      | error otherRaised other =>
          rw [second] at batch
          exact absurd (batch.returns_iff.mpr rfl) (Option.some_ne_none _)
  | error raised reached =>
      rw [first] at batch
      cases second : ExchangeVenue.runBatchEngine draw right with
      | ok otherValue other =>
          rw [second] at batch
          exact absurd (batch.returns_iff.mp rfl) (Option.some_ne_none _)
      | error otherRaised other =>
          rw [second] at batch
          exact ⟨Iff.rfl, batch.states⟩

theorem executeBatch (same : SameRecords left right) :
    EndsAlike (ExchangeVenue.executeBatch draw left)
      (ExchangeVenue.executeBatch draw right) := by
  rw [ExchangeVenue.executeBatch, bind_apply, bind_apply, get_apply,
    get_apply]
  dsimp only
  rw [← same.phase]
  by_cases batch : left.currentPhaseState.executionStyle = .batch
  · rw [if_pos batch]
    exact same.runBatchEngine
  · rw [if_neg batch]
    exact ⟨Iff.rfl, same⟩

theorem cancelAllOrders (same : SameRecords left right) :
    Lockstep SameRecords ExchangeVenue.cancelAllOrders
      ExchangeVenue.cancelAllOrders left right := by
  have oneBook : ∀ instrumentId, ∀ reached other,
      SameRecords reached other →
        Lockstep SameRecords (ExchangeVenue.cancelBook instrumentId)
          (ExchangeVenue.cancelBook instrumentId) reached other := by
    intro instrumentId reached other states
    rw [ExchangeVenue.cancelBook]
    apply Lockstep.reads
    rw [← states.market.books instrumentId rfl]
    cases reached.market.orderBooks.get? instrumentId with
    | none => exact Lockstep.raises _ states
    | some book =>
        exact Lockstep.forM
          (fun _ _ _ _ later => later.cancelAtClose_both rfl) states
  rw [ExchangeVenue.cancelAllOrders]
  apply Lockstep.reads
  rw [← same.market.keys]
  exact Lockstep.forM (fun instrumentId _ => oneBook instrumentId) same

theorem handleTransition (same : SameRecords left right)
    (previous current : PhaseType) :
    EndsAlike (ExchangeVenue.handleTransition draw previous current left)
      (ExchangeVenue.handleTransition draw previous current right) := by
  have nothing : EndsAlike ((pure ⟨⟩ : VenueM PUnit) left)
      ((pure ⟨⟩ : VenueM PUnit) right) := ⟨Iff.rfl, same⟩
  cases previous <;> cases current <;>
    first
      | exact same.executeOpeningAuction
      | exact .of_lockstep same.cancelAllOrders
      | exact nothing

theorem checkPhaseTransitions (same : SameRecords left right)
    (observed : PhaseState) :
    EndsAlike (ExchangeVenue.checkPhaseTransitions observed draw left)
      (ExchangeVenue.checkPhaseTransitions observed draw right) := by
  have observing : SameRecords (left.observing observed)
      (right.observing observed) := same.observing observed
  rw [checkPhaseTransitions_apply, checkPhaseTransitions_apply,
    ← same.last]
  cases left.lastPhase with
  | none => exact ⟨Iff.rfl, observing⟩
  | some previous =>
      by_cases still : previous = observed.phaseType
      · simp only [if_pos still]
        exact ⟨Iff.rfl, observing⟩
      · simp only [if_neg still]
        exact observing.handleTransition previous observed.phaseType

/-- Every operation does the same to both venues. -/
theorem operation (same : SameRecords left right) (call : VenueCall) :
    (call.Raises left ↔ call.Raises right) ∧
      SameRecords (call.execute left) (call.execute right) := by
  cases call with
  | listInstrument instrument =>
      have alike := EndsAlike.of_lockstep
        (same.listInstrument_both instrument)
      exact ⟨alike.returns_iff, alike.states⟩
  | submitOrder order =>
      have alike := EndsAlike.of_lockstep
        (same.submitObject order order.quantity)
      rw [ExchangeVenue.submitObject_quantity] at alike
      exact ⟨alike.returns_iff, alike.states⟩
  | cancelOrder orderId traderId =>
      have alike := EndsAlike.of_lockstep
        (same.cancelOrder orderId traderId)
      exact ⟨alike.returns_iff, alike.states⟩
  | executeBatch draw =>
      have alike := @executeBatch left right draw same
      exact ⟨alike.returns_iff, alike.states⟩
  | executeOpeningAuction draw =>
      have alike := @executeOpeningAuction left right draw same
      exact ⟨alike.returns_iff, alike.states⟩
  | cancelAllOrders =>
      have alike := EndsAlike.of_lockstep same.cancelAllOrders
      exact ⟨alike.returns_iff, alike.states⟩
  | checkPhaseTransitions observed draw =>
      have alike := @checkPhaseTransitions left right draw same observed
      exact ⟨alike.returns_iff, alike.states⟩

theorem step (same : SameRecords left right) (call : ObjectCall) :
    (call.Raises left ↔ call.Raises right) ∧
      SameRecords (call.execute left) (call.execute right) := by
  cases call with
  | submitObject order quantity =>
      have alike := EndsAlike.of_lockstep (same.submitObject order quantity)
      exact ⟨alike.returns_iff, alike.states⟩
  | operation call => exact same.operation call

end SameRecords

end Calls

/-! ## Dropping an order from the history -/

/-- The orders of this id are forgotten. -/
def ExchangeVenue.forget (venue : ExchangeVenue) (orderId : String) :
    ExchangeVenue :=
  venue.withOrders
    (venue.market.heap.orders.filter fun order => order.orderId ≠ orderId)

section Forget

variable {venue : ExchangeVenue} {orderId : String}

theorem mem_forget {order : Order} :
    order ∈ (venue.forget orderId).market.heap.orders ↔
      order ∈ venue.market.heap.orders ∧ order.orderId ≠ orderId := by
  rw [ExchangeVenue.forget, ExchangeVenue.withOrders, List.mem_filter,
    decide_eq_true_eq]

/-- An id which is not in use may be forgotten. -/
theorem VenueShape.forget (shape : VenueShape venue)
    (idle : ∀ order, venue.Live order → order.orderId ≠ orderId) :
    VenueShape (venue.forget orderId) where
  market :=
    { books := shape.market.books
      named := shape.market.named
      registered := fun order rests =>
        mem_forget.mpr
          ⟨shape.market.registered order rests, idle order (Or.inl rests)⟩
      distinct :=
        shape.market.distinct.sublist (List.filter_sublist.map _) }
  instruments := shape.instruments
  pending := by
    intro instrumentId orders found order member
    have facts := shape.pending instrumentId orders found order member
    exact ⟨facts.1, mem_forget.mpr
      ⟨facts.2, idle order (Or.inr ⟨_, _, found, member⟩)⟩⟩

/-- Afterwards an order may have the id. -/
theorem forget_allowed (order : Order) :
    (VenueCall.submitOrder order).Allowed (venue.forget order.orderId) :=
  fun _ taken equal => absurd equal (mem_forget.mp taken).2

end Forget

/-! ## Calls with new ids -/

/-- The order of a call has an id which no other order has had. -/
def ObjectCall.Fresh : ObjectCall → ExchangeVenue → Prop
  | .submitObject order _, venue =>
      (VenueCall.submitOrder order).Allowed venue
  | .operation call, venue => call.Allowed venue

/-- The call submits an order with this id. -/
def ObjectCall.Submits : ObjectCall → String → Prop
  | .submitObject order _, orderId => order.orderId = orderId
  | .operation (.submitOrder order), orderId => order.orderId = orderId
  | .operation _, _ => False

section Fresh

variable {clean venue : ExchangeVenue} {call : ObjectCall}

/-- What a call may submit does not depend on the history. -/
theorem SameRecords.possible (same : SameRecords clean venue)
    (possible : call.Possible venue) : call.Possible clean := by
  cases call with
  | submitObject order left =>
      exact fun unknown => possible (same.allOrderIds ▸ unknown)
  | operation call => trivial

/--
A venue of a kind whose ids may be forgotten can be chosen so that the next
order is a new one.
-/
theorem SameRecords.freshen {kind : ExchangeVenue → Prop}
    (same : SameRecords clean venue) (ofKind : kind clean)
    (forgets : ∀ orderId, call.Submits orderId →
      orderId ∉ clean.allOrderIds → kind (clean.forget orderId)) :
    ∃ clean, kind clean ∧ SameRecords clean venue ∧ call.Fresh clean := by
  have submits : ∀ order : Order, call.Submits order.orderId →
      ∃ clean, kind clean ∧ SameRecords clean venue ∧
        (VenueCall.submitOrder order).Allowed clean := by
    intro order submitted
    by_cases known : order.orderId ∈ clean.allOrderIds
    · exact ⟨clean, ofKind, same, fun _ _ _ => known⟩
    · exact ⟨clean.forget order.orderId,
        forgets order.orderId submitted known, same.withOrders _,
        forget_allowed order⟩
  cases call with
  | submitObject order left => exact submits order rfl
  | operation call =>
      cases call with
      | submitOrder order => exact submits order rfl
      | _ => exact ⟨clean, ofKind, same, trivial⟩

end Fresh

end InternTradingGame
