import InternTradingGame.Exchange.Atomicity
import InternTradingGame.Exchange.Interference
import InternTradingGame.Exchange.SeparateOrders

/-!
# Runs of whole quantities

Orders for whole contracts which are used again with a whole quantity left
are traded in whole contracts only, so no call raises halfway.  Every order
in the venue then has a known id: whole quantities alone keep the orders
apart, whatever ids they have and however often an object comes back.
-/

namespace InternTradingGame

open Effects

/-! ## Whole quantities at the desk -/

/-- Every quote of the queue is for whole contracts. -/
def WholeQuotes (queue : List Quote) : Prop :=
  ∀ quote ∈ queue, Whole quote.2

/-- Both sides of the desk quote whole contracts. -/
def Desk.WholeOn (desk : Desk) : Prop :=
  ∀ side, WholeQuotes (desk side)

section Desk

variable {queue buys sells : List Quote} {quote : Quote} {desk : Desk}
  {taker : Order} {left traded : ℚ}

theorem WholeQuotes.append (first : WholeQuotes buys)
    (second : WholeQuotes sells) : WholeQuotes (buys ++ sells) := by
  intro quote member
  rcases List.mem_append.mp member with inFirst | inSecond
  · exact first quote inFirst
  · exact second quote inSecond

/-- A taker of whole contracts trades them and leaves them. -/
structure WholeMeeting (met : Meeting) : Prop where
  amounts : ∀ amount ∈ met.amounts, Whole amount
  left : Whole met.left
  queue : WholeQuotes met.queue

theorem meet_whole (whole : Whole left) (quotes : WholeQuotes queue) :
    WholeMeeting (meet taker left queue) := by
  induction queue generalizing left with
  | nil => exact ⟨List.forall_mem_nil _, whole, quotes⟩
  | cons head rest induction =>
      rcases head with ⟨maker, available⟩
      have wholes := List.forall_mem_cons.mp quotes
      have available_whole : Whole available := wholes.1
      rw [meet]
      split_ifs with stops short
      · exact ⟨List.forall_mem_nil _, whole, quotes⟩
      · refine ⟨?_, rfl, List.forall_mem_cons.mpr
          ⟨available_whole.sub whole, wholes.2⟩⟩
        exact fun _ member => List.mem_singleton.mp member ▸ whole
      · have later := induction (whole.sub available_whole) wholes.2
        refine ⟨?_, later.left, later.queue⟩
        intro amount member
        rcases List.mem_cons.mp member with rfl | member
        · exact available_whole
        · exact later.amounts amount member

theorem Desk.WholeOn.met (whole : desk.WholeOn) (own : Whole quote.2) :
    WholeMeeting (desk.met quote) :=
  meet_whole own (whole _)

theorem Desk.WholeOn.add (whole : desk.WholeOn) (own : Whole quote.2) :
    (desk.add quote).WholeOn := by
  have met := whole.met own
  intro side
  rw [Desk.add]
  split_ifs
  · intro other member
    rcases List.mem_append.mp member with before | member
    · exact whole side other (List.mem_filter.mp before).1
    · rcases List.mem_cons.mp member with rfl | behind
      · exact met.left
      · exact whole side other (List.mem_filter.mp behind).1
  · exact whole side
  · exact met.queue

theorem Desk.WholeOn.effects_possible (whole : desk.WholeOn)
    (own : Whole quote.2) :
    ∀ effect ∈ desk.effects quote, effect.Possible := by
  intro effect member
  rcases List.mem_append.mp member with trades | rests
  · rcases List.mem_map.mp trades with ⟨amount, inAmounts, rfl⟩
    exact (whole.met own).amounts amount inAmounts
  · split_ifs at rests
    · rw [List.mem_singleton.mp rests]
      trivial
    · cases rests

theorem Desk.WholeOn.queueEffects_possible (whole : desk.WholeOn)
    (quotes : WholeQuotes queue) :
    ∀ effect ∈ desk.queueEffects queue, effect.Possible := by
  induction queue generalizing desk with
  | nil => exact List.forall_mem_nil _
  | cons head rest induction =>
      rcases List.forall_mem_cons.mp quotes with ⟨own, others⟩
      intro effect member
      rcases List.mem_append.mp member with now | later
      · exact whole.effects_possible own effect now
      · exact induction (whole.add own) others effect later

theorem WholeQuotes.keepQuote (quotes : WholeQuotes queue)
    (own : Whole quote.2) (whole : Whole traded) :
    WholeQuotes (keepQuote quote traded queue) := by
  rw [InternTradingGame.keepQuote]
  split_ifs
  · exact quotes
  · exact List.forall_mem_cons.mpr ⟨own.sub whole, quotes⟩

/-- Pairs of whole contracts are traded, and whole contracts are left. -/
structure WholePairs (paired : PairedQuotes) : Prop where
  amounts : ∀ amount ∈ paired.amounts, Whole amount
  buys : WholeQuotes paired.buys
  sells : WholeQuotes paired.sells

theorem pairQuotes_whole (iterations : ℕ) (buying : WholeQuotes buys)
    (selling : WholeQuotes sells) :
    WholePairs (pairQuotes iterations buys sells) := by
  fun_induction pairQuotes iterations buys sells with
  | case1 iterations buy buys sell sells crosses induction =>
      rcases List.forall_mem_cons.mp buying with ⟨buyWhole, buysWhole⟩
      rcases List.forall_mem_cons.mp selling with ⟨sellWhole, sellsWhole⟩
      have traded := buyWhole.min sellWhole
      have later := induction
        (WholeQuotes.keepQuote buysWhole buyWhole traded)
        (WholeQuotes.keepQuote sellsWhole sellWhole traded)
      refine ⟨?_, later.buys, later.sells⟩
      intro amount member
      rcases List.mem_cons.mp member with rfl | member
      · exact traded
      · exact later.amounts amount member
  | case2 iterations buy buys sell sells apart =>
      exact ⟨List.forall_mem_nil _, buying, selling⟩
  | case3 iterations buys sells exhausted =>
      exact ⟨List.forall_mem_nil _, buying, selling⟩

end Desk

/-! ## Whole venues -/

/-- Whole contracts are left of every order. -/
def Heap.WholeLeft (heap : Heap) : Prop :=
  ∀ order ∈ heap.orders, Whole (heap.remaining order)

/-- No call of the venue has raised halfway, and whole contracts are left. -/
structure VenueWhole (venue : ExchangeVenue) : Prop where
  fair : VenueFair venue
  whole : venue.market.heap.WholeLeft

theorem whole_stays : StaysAfterTrades Whole :=
  fun trade _ whole _ => whole.sub trade.quantity_whole

/-- What is left of the submitted order is whole. -/
def ObjectCall.WholeLeft : ObjectCall → Prop
  | .submitObject _ left => Whole left
  | .operation call => call.WholeQuantity

instance (call : ObjectCall) : Decidable call.WholeLeft := by
  rcases call <;> unfold ObjectCall.WholeLeft <;> infer_instance

section Plans

variable {market : Market} {book : OrderBook} {orders : List Order}
  {pending : PendingOrders}

theorem Heap.WholeLeft.quotes (whole : market.heap.WholeLeft)
    (taken : ∀ order ∈ orders, order ∈ market.heap.orders) :
    WholeQuotes (market.heap.quotes orders) := by
  intro quote member
  rcases List.mem_map.mp member with ⟨order, inOrders, rfl⟩
  exact whole order (taken order inOrders)

theorem Heap.WholeLeft.desk (whole : market.heap.WholeLeft)
    (shape : MarketShape market) {instrumentId : String}
    (found : market.orderBooks.get? instrumentId = some book) :
    (BookState.desk ⟨market.heap, book⟩).WholeOn := by
  intro side
  refine whole.quotes fun order resting => ?_
  exact shape.registered order
    ⟨instrumentId, book, found, OrderBook.mem_resting_of_mem resting⟩

/-- A batch of whole contracts can be carried out. -/
theorem batchPlan_possible (whole : market.heap.WholeLeft)
    (shape : MarketShape market) (draw : String → ℚ)
    (taken : ∀ collected ∈ pending.entries, ∀ order ∈ collected.2,
      order ∈ market.heap.orders) :
    ∀ effect ∈ batchPlan draw market pending, effect.Possible := by
  intro effect member
  rcases List.mem_flatMap.mp member with ⟨collected, inBatch, inPlan⟩
  rw [instrumentPlan] at inPlan
  split at inPlan
  case h_1 => cases inPlan
  case h_2 book found =>
    have inside := taken collected inBatch
    have perm := sides_perm draw collected.2
    have paired := fun iterations => pairQuotes_whole iterations
      (whole.quotes fun order isBuy =>
        inside order (perm.mem_iff.mpr (List.mem_append_left _ isBuy)))
      (whole.quotes fun order isSell =>
        inside order (perm.mem_iff.mpr (List.mem_append_right _ isSell)))
    rcases List.mem_append.mp inPlan with trades | added
    · rcases List.mem_map.mp trades with ⟨amount, inAmounts, rfl⟩
      exact (paired _).amounts amount inAmounts
    · exact (whole.desk shape found).queueEffects_possible
        ((paired _).buys.append (paired _).sells) effect added

end Plans

section Venues

variable {venue clean : ExchangeVenue} {call : ObjectCall}

theorem VenueWhole.safeBatch (whole : VenueWhole venue)
    (draw : String → ℚ) : venue.SafeBatch draw := by
  refine Or.inl (batchPlan_possible whole.whole whole.fair.shape.market draw
    ?_)
  rintro ⟨instrumentId, orders⟩ inBatch order member
  exact (whole.fair.shape.pending instrumentId orders
    ((venue.pendingOrders.get?_eq_some_iff _ _).mpr inBatch) order
    member).2

theorem VenueWhole.safeOrder (whole : VenueWhole venue) (order : Order)
    {left : ℚ} (own : Whole left) : venue.SafeOrder order left := by
  intro _ _ _
  have desk : (venue.market.desk order.instrumentId).WholeOn := by
    rw [Market.desk]
    split
    case h_1 => exact fun _ => List.forall_mem_nil _
    case h_2 book found =>
      exact whole.whole.desk whole.fair.shape.market found
  exact (desk.met own).amounts

/-- Whole quantities meet the condition of every call. -/
theorem VenueWhole.atomicWhen (whole : VenueWhole venue)
    (own : call.WholeLeft) : call.AtomicWhen venue := by
  cases call with
  | submitObject order left => exact whole.safeOrder order own
  | operation call =>
      cases call with
      | submitOrder order => exact whole.safeOrder order own
      | executeBatch draw => exact fun _ => whole.safeBatch draw
      | executeOpeningAuction draw => exact whole.safeBatch draw
      | checkPhaseTransitions observed draw =>
          exact fun _ _ => whole.safeBatch draw
      | _ => trivial

theorem ObjectCall.WholeLeft.brings (own : call.WholeLeft) :
    call.Brings Whole venue := by
  cases call with
  | submitObject order left => exact fun _ => own
  | operation call =>
      cases call with
      | submitOrder order => exact own
      | _ => trivial

theorem VenueWhole.execute (whole : VenueWhole venue)
    (fresh : call.Fresh venue) (possible : call.Possible venue)
    (own : call.WholeLeft) : VenueWhole (call.execute venue) where
  fair := (whole.fair.step fresh possible).2 (whole.atomicWhen own)
  whole :=
    (VenueLeaves.execute ⟨whole.fair.shape, whole.whole⟩ whole_stays fresh
      own.brings).left

/-- The venue shows the same as one with whole quantities and new ids. -/
def ShowsWhole (venue : ExchangeVenue) : Prop :=
  ∃ clean, VenueWhole clean ∧ SameRecords clean venue

/-- The venue can be chosen so that the next order is fresh. -/
theorem ShowsWhole.fresh (shows : ShowsWhole venue) (call : ObjectCall) :
    ∃ clean, VenueWhole clean ∧ SameRecords clean venue ∧
      call.Fresh clean := by
  rcases shows with ⟨clean, whole, same⟩
  apply same.freshen whole
  intro orderId _ unknown
  exact
    { fair := whole.fair.forget unknown
      whole := fun other member =>
        whole.whole other (mem_forget.mp member).1 }

/-- The ids which the venue knows keep a whole venue's orders apart. -/
theorem ShowsWhole.separate (shows : ShowsWhole venue)
    (possible : call.Possible venue) : call.Separate venue := by
  rcases shows with ⟨clean, whole, same⟩
  have unused : ∀ order : Order, order.orderId ∉ venue.allOrderIds →
      order.orderId ∉ venue.storedIds := by
    intro order unknown stored
    rcases ExchangeVenue.live_of_stored stored with ⟨other, live, equal⟩
    apply unknown
    rw [← same.allOrderIds, ← equal]
    exact whole.fair.known other (same.live_iff.mpr live)
  cases call with
  | submitObject order left =>
      exact fun unknown => ⟨possible unknown, unused order unknown⟩
  | operation call =>
      cases call with
      | submitOrder order => exact unused order
      | _ => trivial

theorem ShowsWhole.step (shows : ShowsWhole venue)
    (possible : call.Possible venue) (own : call.WholeLeft) :
    ShowsWhole (call.execute venue) := by
  rcases shows.fresh call with ⟨clean, whole, same, fresh⟩
  exact ⟨_, whole.execute fresh (same.possible possible) own,
    (same.step call).2⟩

end Venues

/-! ## Runs of whole quantities -/

section Runs

variable {cached baseline : PhaseState} {calls : List ObjectCall}
  {venue : ExchangeVenue}

theorem ShowsWhole.of_run
    (run : Run ObjectStep (ExchangeVenue.new cached baseline) calls venue)
    (whole : ∀ call ∈ calls, call.WholeLeft) : ShowsWhole venue := by
  induction run with
  | refl =>
      exact ⟨_,
        { fair := VenueFair.new cached baseline
          whole := List.forall_mem_nil _ },
        SameRecords.refl (VenueShape.new cached baseline)⟩
  | snoc init last induction =>
      rcases last with ⟨possible, rfl⟩
      rcases List.forall_mem_append.mp whole with ⟨earlier, now⟩
      exact (induction earlier).step possible
        (List.forall_mem_singleton.mp now)

/-- In a run of whole quantities no call fails halfway. -/
theorem permitted_atomicWhen_of_whole
    (run : Run ObjectStep (ExchangeVenue.new cached baseline) calls venue)
    (whole : ∀ call ∈ calls, call.WholeLeft) :
    Permitted ObjectCall.AtomicWhen ObjectCall.execute
      (ExchangeVenue.new cached baseline) calls := by
  apply run.permitted_iff_forall.mpr
  rintro before call after reached rfl init
  rcases List.forall_mem_append.mp whole with ⟨earlier, later⟩
  rcases ShowsWhole.of_run init earlier with ⟨clean, whole, same⟩
  exact (same.atomicWhen_iff call).mp
    (whole.atomicWhen (List.forall_mem_cons.mp later).1)

/-- In a run of whole quantities the ids tell the orders apart. -/
theorem separateRun_of_whole
    (run : Run ObjectStep (ExchangeVenue.new cached baseline) calls venue)
    (whole : ∀ call ∈ calls, call.WholeLeft) :
    Run SeparateStep (ExchangeVenue.new cached baseline) calls venue := by
  induction run with
  | refl => exact .refl _
  | snoc init last induction =>
      rcases List.forall_mem_append.mp whole with ⟨earlier, _⟩
      exact .snoc (induction earlier)
        ⟨(ShowsWhole.of_run init earlier).separate last.1, last.2⟩

/--
What keeps the orders of a run apart, whose quantities the heap holds under
their ids: all quantities are whole, or no order takes the id of another one
which is still in the venue.
-/
def KeptApart (start : ExchangeVenue) (calls : List ObjectCall) : Prop :=
  (∀ call ∈ calls, call.WholeLeft) ∨
    Permitted ObjectCall.Separate ObjectCall.execute start calls

theorem KeptApart.separate {call : ObjectCall}
    (apart :
      KeptApart (ExchangeVenue.new cached baseline) (calls ++ [call]))
    (run : Run ObjectStep (ExchangeVenue.new cached baseline) calls venue)
    (possible : call.Possible venue) :
    Run SeparateStep (ExchangeVenue.new cached baseline) calls venue ∧
      call.Separate venue := by
  rcases apart with whole | permitted
  · rcases List.forall_mem_append.mp whole with ⟨earlier, _⟩
    exact ⟨separateRun_of_whole run earlier,
      (ShowsWhole.of_run run earlier).separate possible⟩
  · rcases permitted_snoc.mp permitted with ⟨earlier, now⟩
    rw [run.eq_replay]
    exact ⟨run_replay earlier, now⟩

end Runs

end InternTradingGame
