import InternTradingGame.Exchange.OrderObjects
import InternTradingGame.Exchange.Projection

/-!
# Every call of the venue keeps a projection

Calls which concern a chosen instrument, batches, phase transitions and the
close run on both venues.  A submission or a cancel on another instrument
runs on the first venue alone.
-/

namespace InternTradingGame

open Effects

/-- The ids of a view which a venue knows. -/
def View.ids (view : View) (known : Finset String) : Set String :=
  { orderId | orderId ∈ known ∧ orderId ∈ view.mine }

theorem View.ids_subset (view : View) (known : Finset String) :
    view.ids known ⊆ view.mine :=
  fun _ member => member.2

/-- The same instrument is listed in both markets. -/
theorem Market.Projects.listing {view : View} {ids : Set String}
    {left right : Market}
    (projects : Market.Projects view ids left right) (symbol : String) :
    Market.Projects view ids (left.listing symbol)
      (right.listing symbol) := by
  have empty : ∀ ids : Set String, (OrderBook.new symbol).Within ids := by
    intro ids side level member
    cases side <;> cases member
  constructor
  · exact projects.heap
  · exact OrderedDict.keys_set_congr _ _ _ projects.keys
  · intro instrumentId inside
    rw [Market.listing, Market.listing, OrderedDict.get?_set,
      OrderedDict.get?_set, projects.books instrumentId inside]
  · intro instrumentId book found
    rcases Market.get?_listing found with ⟨rfl, rfl⟩ | listed
    · rfl
    · exact projects.named instrumentId book listed
  · intro instrumentId book inside found
    rcases Market.get?_listing found with ⟨rfl, rfl⟩ | listed
    · exact empty ids
    · exact projects.within instrumentId book inside listed
  · intro instrumentId book outside found
    rcases Market.get?_listing found with ⟨rfl, rfl⟩ | listed
    · exact empty view.mineᶜ
    · exact projects.outside instrumentId book outside listed
  · intro instrumentId book outside found
    rcases Market.get?_listing found with ⟨rfl, rfl⟩ | listed
    · exact empty ∅
    · exact projects.bare instrumentId book outside listed

/-- An order which is found rests in the book, under the id. -/
theorem getOrder_mem {book : OrderBook} {orderId : String} {order : Order}
    (found : book.getOrder orderId = some order) :
    order.orderId = orderId ∧
      ∃ side, ∃ level ∈ book.levels side, order ∈ level.orders := by
  rw [OrderBook.getOrder] at found
  cases priced : book.orderPriceMap.get? orderId with
  | none =>
      rw [priced] at found
      cases found
  | some price =>
      rw [priced] at found
      rcases List.exists_of_findSome?_eq_some found with
        ⟨level, member, inLevel⟩
      refine ⟨by simpa using List.find?_some inLevel,
        book.sideOfPrice price, level, (List.mem_filter.mp member).1,
        List.mem_of_find?_eq_some inLevel⟩

theorem getOrder_eq_none {book : OrderBook} {ids : Set String}
    {orderId : String} (within : book.Within ids)
    (absent : orderId ∉ ids) : book.getOrder orderId = none := by
  cases found : book.getOrder orderId with
  | none => rfl
  | some order =>
      rcases getOrder_mem found with ⟨rfl, side, level, member, inLevel⟩
      exact absurd (within side level member order inLevel) absent

/-- The place where an order is found. -/
theorem findOrder_mem {market : Market} {orderId instrumentId : String}
    {order : Order}
    (found : ExchangeVenue.findOrder market orderId =
      some (instrumentId, order)) :
    ∃ book, market.orderBooks.get? instrumentId = some book ∧
      book.getOrder orderId = some order := by
  rcases List.exists_of_findSome?_eq_some found with ⟨entry, member, value⟩
  rcases Option.map_eq_some_iff.mp value with ⟨candidate, stored, equal⟩
  rcases Prod.mk.inj equal with ⟨rfl, rfl⟩
  exact ⟨entry.2, (market.orderBooks.get?_eq_some_iff _ _).mpr member,
    stored⟩

/-- An order of the view is found at the same place. -/
theorem Market.Projects.findOrder_both {view : View} {ids : Set String}
    {left right : Market} {orderId : String}
    (projects : Market.Projects view ids left right)
    (mine : orderId ∈ view.mine) :
    ExchangeVenue.findOrder left orderId =
      ExchangeVenue.findOrder right orderId := by
  rw [ExchangeVenue.findOrder, ExchangeVenue.findOrder,
    OrderedDict.findSome?_entries, OrderedDict.findSome?_entries,
    projects.keys]
  congr 1
  funext instrumentId
  cases inside : view.inside instrumentId with
  | true => rw [projects.books instrumentId inside]
  | false =>
      have leftNone : ((left.orderBooks.get? instrumentId).bind
          fun book => (book.getOrder orderId).map fun order =>
            (instrumentId, order)) = none := by
        cases found : left.orderBooks.get? instrumentId with
        | none => rfl
        | some book =>
            have within := projects.outside instrumentId book inside found
            rw [Option.bind_some,
              getOrder_eq_none within (not_not.mpr mine), Option.map_none]
      have rightNone : ((right.orderBooks.get? instrumentId).bind
          fun book => (book.getOrder orderId).map fun order =>
            (instrumentId, order)) = none := by
        cases found : right.orderBooks.get? instrumentId with
        | none => rfl
        | some book =>
            have within := projects.bare instrumentId book inside found
            rw [Option.bind_some,
              getOrder_eq_none within (Set.notMem_empty orderId),
              Option.map_none]
      exact leftNone.trans rightNone.symm

/-- The order is found in a chosen book exactly when its id is one. -/
theorem Market.Projects.inside_iff {view : View} {ids : Set String}
    {left right : Market} {orderId instrumentId : String} {order : Order}
    (projects : Market.Projects view ids left right)
    (sub : ids ⊆ view.mine)
    (found : ExchangeVenue.findOrder left orderId =
      some (instrumentId, order)) :
    view.inside instrumentId = true ↔ orderId ∈ view.mine := by
  rcases findOrder_mem found with ⟨book, listed, stored⟩
  rcases getOrder_mem stored with ⟨rfl, side, level, member, inLevel⟩
  cases inside : view.inside instrumentId with
  | true =>
      have within := projects.within instrumentId book inside listed
      exact iff_of_true rfl
        (sub (within side level member order inLevel))
  | false =>
      have within := projects.outside instrumentId book inside listed
      exact iff_of_false Bool.false_ne_true
        (within side level member order inLevel)

/-- The second venue is what the first one shows under a view. -/
structure ExchangeVenue.Projects (view : View) (ids : Set String)
    (left right : ExchangeVenue) : Prop where
  market : Market.Projects view ids left.market right.market
  instruments : left.instruments = right.instruments
  known : ∀ orderId ∈ view.mine,
    orderId ∈ left.allOrderIds ↔ orderId ∈ right.allOrderIds
  phase : left.currentPhaseState = right.currentPhaseState
  last : left.lastPhase = right.lastPhase
  pending : right.pendingOrders =
    left.pendingOrders.keepKeys view.inside
  covers : ∀ collected ∈ left.pendingOrders.entries,
    view.Covers ids collected

/-- The projection compares all known ids of the view. -/
def ExchangeVenue.Shows (view : View) (left right : ExchangeVenue) :
    Prop :=
  ExchangeVenue.Projects view (view.ids left.allOrderIds) left right

namespace ExchangeVenue.Projects

variable {view : View} {ids : Set String} {left right : ExchangeVenue}

theorem contains_iff (projects : ExchangeVenue.Projects view ids left right)
    (instrumentId : String) :
    left.market.orderBooks.Contains instrumentId ↔
      right.market.orderBooks.Contains instrumentId := by
  rw [OrderedDict.Contains, OrderedDict.Contains, projects.market.keys]

theorem listInstrument_both
    (projects : ExchangeVenue.Projects view ids left right)
    (instrument : Instrument) :
    Lockstep (ExchangeVenue.Projects view ids)
      (ExchangeVenue.listInstrument instrument)
      (ExchangeVenue.listInstrument instrument) left right := by
  have first := listInstrument_apply left instrument
  have second := listInstrument_apply right instrument
  rw [← projects.instruments] at second
  by_cases known : left.instruments.Contains instrument.symbol
  · rw [if_pos known] at first second
    exact Lockstep.of_error first second projects
  · rw [if_neg known] at first second
    refine Lockstep.of_ok first second ?_
    exact
      { projects with
        market := projects.market.listing instrument.symbol
        instruments := by
          rw [ExchangeVenue.listed, ExchangeVenue.listed,
            projects.instruments] }

/-! ## Submitting an order -/

section Submit

variable {order : Order}

/-- Registering an order on both sides, at no more ids than its own. -/
theorem register_wider {wider : Set String}
    (projects : ExchangeVenue.Projects view ids left right)
    (sub : ids ⊆ wider) (covered : wider ⊆ insert order.orderId ids) :
    ExchangeVenue.Projects view wider (left.register order)
      (right.register order) where
  market := projects.market.setHeap sub
    ((projects.market.heap.allocate order).mono covered)
  instruments := projects.instruments
  known := by
    intro orderId isMine
    rw [ExchangeVenue.register, ExchangeVenue.register,
      Finset.mem_insert, Finset.mem_insert,
      projects.known orderId isMine]
  phase := projects.phase
  last := projects.last
  pending := projects.pending
  covers := fun collected member =>
    (projects.covers collected member).mono sub

/-- Registering an order of the view on both sides. -/
theorem register_both
    (projects : ExchangeVenue.Shows view left right) :
    ExchangeVenue.Shows view (left.register order)
      (right.register order) := by
  apply register_wider projects
  · exact fun orderId member =>
      ⟨Finset.mem_insert_of_mem member.1, member.2⟩
  · rintro orderId ⟨known, isMine⟩
    rcases Finset.mem_insert.mp known with equal | old
    · exact Or.inl equal
    · exact Or.inr ⟨old, isMine⟩

/-- The object has the same quantity left on both sides. -/
theorem setLeft_both
    (projects : ExchangeVenue.Projects view ids left right)
    (quantity : ℚ) :
    ExchangeVenue.Projects view ids (left.setLeft order quantity)
      (right.setLeft order quantity) :=
  { projects with
    market := projects.market.setHeap (Set.Subset.refl ids)
      (projects.market.heap.setRemaining order.orderId quantity) }

/-- One more order has been collected. -/
theorem covers_collect
    (projects : ExchangeVenue.Projects view ids left right)
    (belongs : if view.inside order.instrumentId then order.orderId ∈ ids
      else order.orderId ∈ view.mineᶜ) :
    ∀ collected ∈
        (BatchMatchingEngine.collect left.pendingOrders order).entries,
      view.Covers ids collected := by
  rintro ⟨instrumentId, orders⟩ member candidate inOrders
  rw [BatchMatchingEngine.collect, OrderedDict.mem_entries_set] at member
  rcases member with ⟨rfl, rfl⟩ | ⟨_, old⟩
  · rcases List.mem_append.mp inOrders with earlier | new
    · cases stored : left.pendingOrders.get? order.instrumentId with
      | none =>
          rw [stored] at earlier
          exact absurd earlier List.not_mem_nil
      | some orders =>
          rw [stored] at earlier
          exact projects.covers _
            ((left.pendingOrders.get?_eq_some_iff _ _).mp stored)
            candidate earlier
    · rw [List.mem_singleton.mp new]
      exact ⟨rfl, belongs⟩
  · exact projects.covers _ old candidate inOrders

/-- Collecting an order of the view on both sides. -/
theorem collect_both
    (projects : ExchangeVenue.Projects view ids left right)
    (inside : view.inside order.instrumentId = true)
    (known : order.orderId ∈ ids) :
    ExchangeVenue.Projects view ids
      { left with
        pendingOrders :=
          BatchMatchingEngine.collect left.pendingOrders order }
      { right with
        pendingOrders :=
          BatchMatchingEngine.collect right.pendingOrders order } :=
  { projects with
    pending := by
      rw [BatchMatchingEngine.collect, BatchMatchingEngine.collect,
        OrderedDict.keepKeys_set_of_kept _ _ inside, projects.pending,
        OrderedDict.get?_keepKeys, if_pos inside]
    covers := projects.covers_collect (by
      rw [if_pos inside]
      exact known) }

/--
Two venues take an order object of the view in lockstep, if they are related
whenever they show the same once it has been registered.
-/
theorem submitObject_lockstep {wider : Set String} {quantity : ℚ}
    {related : ExchangeVenue → ExchangeVenue → Prop}
    (projects : ExchangeVenue.Projects view ids left right)
    (start : related left right)
    (inside : view.inside order.instrumentId = true)
    (mine : order.orderId ∈ view.mine) (known : order.orderId ∈ wider)
    (registered : ExchangeVenue.Projects view wider
      (left.registerObject order quantity)
      (right.registerObject order quantity))
    (relates : ∀ reached other,
      ExchangeVenue.Projects view wider reached other →
        reached.allOrderIds =
            (left.registerObject order quantity).allOrderIds →
          related reached other) :
    Lockstep related (ExchangeVenue.submitObject order quantity)
      (ExchangeVenue.submitObject order quantity) left right := by
  rw [ExchangeVenue.submitObject]
  apply Lockstep.reads
  rw [← projects.phase]
  apply Lockstep.branches Iff.rfl
  · intro _
    have same : left.phaseRejection order = right.phaseRejection order := by
      rw [ExchangeVenue.phaseRejection, ExchangeVenue.phaseRejection,
        projects.phase]
    rw [same]
    exact Lockstep.returns _ start
  · intro _
    apply Lockstep.branches
      (not_congr (projects.contains_iff order.instrumentId))
    · intro _
      exact Lockstep.raises _ start
    · intro _
      apply Lockstep.branches (projects.known _ mine)
      · intro _
        exact Lockstep.raises _ start
      · intro _
        have engine : left.shouldUseBatchEngine =
            right.shouldUseBatchEngine := by
          rw [ExchangeVenue.shouldUseBatchEngine,
            ExchangeVenue.shouldUseBatchEngine, projects.phase]
        rw [engine]
        change Lockstep _
          (if right.shouldUseBatchEngine = true then _ else _)
          (if right.shouldUseBatchEngine = true then _ else _)
          (left.registerObject order quantity)
          (right.registerObject order quantity)
        apply Lockstep.branches Iff.rfl
        · intro _
          apply (Lockstep.modifies (relates _ _
            (collect_both registered inside known) rfl)).bind
          intro _ _ _ states
          exact Lockstep.returns _ states
        · intro _
          apply Lockstep.zooms
            (registered.market.continuous_both inside known)
          intro market other markets
          exact relates _ _ { registered with market := markets } rfl

theorem submitOrder_both (projects : ExchangeVenue.Shows view left right)
    (inside : view.inside order.instrumentId = true)
    (mine : order.orderId ∈ view.mine) :
    Lockstep (ExchangeVenue.Shows view)
      (ExchangeVenue.submitOrder order)
      (ExchangeVenue.submitOrder order) left right := by
  have known : order.orderId ∈
      view.ids (left.register order).allOrderIds :=
    ⟨Finset.mem_insert_self _ _, mine⟩
  have registered : ExchangeVenue.Projects view
      (view.ids (left.register order).allOrderIds)
      (left.registerObject order order.quantity)
      (right.registerObject order order.quantity) :=
    setLeft_both (register_both projects) _
  rw [← ExchangeVenue.submitObject_quantity]
  apply submitObject_lockstep projects projects inside mine known
    registered
  intro reached other states sameIds
  rw [ExchangeVenue.Shows, sameIds]
  exact states

/-- Registering another order on the first side. -/
theorem register_alone
    (projects : ExchangeVenue.Projects view ids left right)
    (sub : ids ⊆ view.mine) (other : order.orderId ∉ view.mine) :
    ExchangeVenue.Projects view ids (left.register order) right where
  market :=
    { projects.market with
      heap := by
        have unseen : Heap.Alike ids view.seen
            (left.register order).market.heap left.market.heap := by
          refine ⟨?_, rfl⟩
          intro orderId known
          have different : orderId ≠ order.orderId := by
            rintro rfl
            exact other (sub known)
          exact Heap.remainingQuantity_setRemaining_ne _ _ different
        exact unseen.trans projects.market.heap }
  instruments := projects.instruments
  known := by
    intro orderId isMine
    have different : orderId ≠ order.orderId := by
      rintro rfl
      exact other isMine
    rw [← projects.known orderId isMine, ExchangeVenue.register,
      Finset.mem_insert]
    exact or_iff_right different
  phase := projects.phase
  last := projects.last
  pending := projects.pending
  covers := projects.covers

/-- Collecting another order on the first side. -/
theorem collect_alone
    (projects : ExchangeVenue.Projects view ids left right)
    (outside : view.inside order.instrumentId = false)
    (other : order.orderId ∉ view.mine) :
    ExchangeVenue.Projects view ids
      { left with
        pendingOrders :=
          BatchMatchingEngine.collect left.pendingOrders order }
      right :=
  { projects with
    pending := by
      rw [BatchMatchingEngine.collect,
        OrderedDict.keepKeys_set_of_dropped _ _ outside]
      exact projects.pending
    covers := projects.covers_collect (by
      rw [outside]
      exact other) }

theorem submitOrder_alone
    (projects : ExchangeVenue.Projects view ids left right)
    (sub : ids ⊆ view.mine)
    (outside : view.inside order.instrumentId = false)
    (other : order.orderId ∉ view.mine) :
    ExchangeVenue.Projects view ids
      (finalState (ExchangeVenue.submitOrder order left)) right := by
  have registered : ExchangeVenue.Projects view ids
      (left.register order) right := register_alone projects sub other
  refine @finalState_of_ends _ _ _
    (fun next => ExchangeVenue.Projects view ids next right) ?_
  rw [ExchangeVenue.submitOrder, ends_get_bind]
  by_cases closed : left.currentPhaseState.isOrderSubmissionAllowed
  · by_cases listed :
        left.market.orderBooks.Contains order.instrumentId
    · by_cases known : order.orderId ∈ left.allOrderIds
      · simp only [closed, listed, known, Bool.not_true,
          Bool.false_eq_true, not_true, if_true, if_false]
        exact projects
      · simp only [closed, listed, known, Bool.not_true,
          Bool.false_eq_true, not_true, if_false]
        change Ends
          (if left.shouldUseBatchEngine = true then _ else _)
          (left.register order) _ _
        by_cases engine : left.shouldUseBatchEngine = true
        · rw [if_pos engine]
          exact collect_alone registered outside other
        · rw [if_neg engine]
          apply Ends.zoom
          refine (Ends.of_finalState
            (fun market =>
              Market.Projects view ids market right.market)
            (registered.market.continuous_alone sub outside other)).mono
            ?_ ?_
          · exact fun _ _ market => { registered with market }
          · exact fun _ _ market => { registered with market }
    · simp only [closed, listed, Bool.not_true, Bool.false_eq_true,
        not_false_iff, if_true, if_false]
      exact projects
  · simp only [closed, Bool.not_false, if_true]
    exact projects

end Submit

/-! ## Cancelling an order -/

section Cancel

variable {orderId traderId : String}

theorem known_erase
    (projects : ExchangeVenue.Projects view ids left right)
    (erased : String) :
    ∀ other ∈ view.mine,
      other ∈ left.allOrderIds.erase erased ↔
        other ∈ right.allOrderIds.erase erased := by
  intro other isMine
  rw [Finset.mem_erase, Finset.mem_erase, projects.known other isMine]

/-- Another id is forgotten on the first side. -/
theorem erase_alone
    (projects : ExchangeVenue.Projects view ids left right)
    {erased : String} (other : erased ∉ view.mine) :
    ExchangeVenue.Projects view ids
      { left with allOrderIds := left.allOrderIds.erase erased } right :=
  { projects with
    known := by
      intro third isMine
      rw [← projects.known third isMine, Finset.mem_erase]
      apply and_iff_right
      rintro rfl
      exact other isMine }

theorem cancelOrder_both
    (projects : ExchangeVenue.Projects view ids left right)
    (sub : ids ⊆ view.mine) (mine : orderId ∈ view.mine) :
    Lockstep (ExchangeVenue.Projects view ids)
      (ExchangeVenue.cancelOrder orderId traderId)
      (ExchangeVenue.cancelOrder orderId traderId) left right := by
  rw [ExchangeVenue.cancelOrder]
  apply Lockstep.reads
  rw [← projects.phase]
  apply Lockstep.branches Iff.rfl
  · intro _
    exact Lockstep.returns _ projects
  · intro _
    apply Lockstep.branches (not_congr (projects.known _ mine))
    · intro _
      exact Lockstep.returns _ projects
    · intro _
      rw [← projects.market.findOrder_both mine]
      cases found : ExchangeVenue.findOrder left.market orderId with
      | none => exact Lockstep.returns _ projects
      | some place =>
          rcases place with ⟨instrumentId, order⟩
          have inside : view.inside instrumentId = true :=
            (projects.market.inside_iff sub found).mpr mine
          apply Lockstep.branches Iff.rfl
          · intro _
            exact Lockstep.raises _ projects
          · intro _
            have onMarket : Lockstep (ExchangeVenue.Projects view ids)
                (ExchangeVenue.onMarket (Market.onBook instrumentId
                  (OrderBook.cancelOrder orderId)))
                (ExchangeVenue.onMarket (Market.onBook instrumentId
                  (OrderBook.cancelOrder orderId))) left right :=
              Lockstep.zooms
                (projects.market.onBook_both inside
                  (cancelOrder_local ids orderId))
                fun _ _ market => { projects with market }
            apply onMarket.bind
            intro cancelled reached other states
            cases cancelled with
            | none => exact Lockstep.returns _ states
            | some cancelled =>
                apply Lockstep.bind (Lockstep.modifies
                  { states with known := states.known_erase orderId })
                intro _ _ _ states
                exact Lockstep.returns _ states

theorem cancelOrder_alone
    (projects : ExchangeVenue.Projects view ids left right)
    (sub : ids ⊆ view.mine) (other : orderId ∉ view.mine) :
    ExchangeVenue.Projects view ids
      (finalState (ExchangeVenue.cancelOrder orderId traderId left))
      right := by
  refine @finalState_of_ends _ _ _
    (fun next => ExchangeVenue.Projects view ids next right) ?_
  rw [ExchangeVenue.cancelOrder, ends_get_bind]
  by_cases closed : left.currentPhaseState.isOrderCancellationAllowed
  · by_cases known : orderId ∈ left.allOrderIds
    · simp only [closed, known, Bool.not_true, Bool.false_eq_true,
        not_true, if_false]
      cases found : ExchangeVenue.findOrder left.market orderId with
      | none => exact projects
      | some place =>
          rcases place with ⟨instrumentId, order⟩
          have outside : view.inside instrumentId = false := by
            rw [← Bool.not_eq_true, projects.market.inside_iff sub found]
            exact other
          by_cases owner : order.traderId = traderId
          · have market := projects.market.onBook_alone sub outside
              (cancelOrder_local view.mineᶜ orderId)
            have onMarket : ExchangeVenue.Projects view ids
                (finalState (ExchangeVenue.onMarket
                  (Market.onBook instrumentId
                    (OrderBook.cancelOrder orderId)) left)) right := by
              rw [ExchangeVenue.onMarket, finalState_zoom]
              exact { projects with market }
            simp only [owner, ne_eq, not_true, if_false]
            apply (Ends.of_finalState
              (fun next => ExchangeVenue.Projects view ids next right)
              onMarket).bind
            intro cancelled next states
            cases cancelled with
            | none => exact states
            | some cancelled => exact states.erase_alone other
          · simp only [ne_eq, owner, not_false_iff, if_true]
            exact projects
    · simp only [closed, known, Bool.not_true, Bool.false_eq_true,
        not_false_iff, if_true, if_false]
      exact projects
  · simp only [closed, Bool.not_false, if_true]
    exact projects

end Cancel

/-! ## Batches -/

section Batch

variable {draw : String → ℚ} {reached : ExchangeVenue}

/-- The second venue follows a batch which returns. -/
theorem runBatchEngine_follows
    (projects : ExchangeVenue.Projects view ids left right)
    (sub : ids ⊆ view.mine) {results : BatchResults}
    (returns :
      ExchangeVenue.runBatchEngine draw left = .ok results reached) :
    ∃ others other,
      ExchangeVenue.runBatchEngine draw right = .ok others other ∧
        ExchangeVenue.Projects view ids reached other ∧
        ∀ instrumentId, view.inside instrumentId = true →
          results.get? instrumentId = others.get? instrumentId := by
  have first := runBatchEngine_apply left draw
  have second := runBatchEngine_apply right draw
  rw [returns] at first
  have start : BatchContext.Projects view ids
      { market := left.market, results := ∅ }
      { market := right.market, results := ∅ } :=
    ⟨projects.market, fun _ _ => rfl⟩
  cases ran : BatchMatchingEngine.runBatch draw left.pendingOrders
      { market := left.market, results := ∅ } with
  | error raised context =>
      rw [ran] at first
      cases first
  | ok value context =>
      rw [ran] at first
      rcases EStateM.Result.ok.inj first with ⟨rfl, rfl⟩
      rcases BatchContext.Projects.runBatch_projects draw sub projects.covers
          start ran with
        ⟨otherContext, otherRan, contexts, rfl⟩
      rw [projects.pending, otherRan] at second
      refine ⟨_, _, second, ?_, contexts.results⟩
      exact
        { market := contexts.market
          instruments := projects.instruments
          known := projects.known
          phase := projects.phase
          last := projects.last
          pending := rfl
          covers := by
            intro collected member
            exact absurd member List.not_mem_nil }

theorem executeBatch_follows
    (projects : ExchangeVenue.Projects view ids left right)
    (sub : ids ⊆ view.mine) {results : BatchResults}
    (returns :
      ExchangeVenue.executeBatch draw left = .ok results reached) :
    ∃ others other,
      ExchangeVenue.executeBatch draw right = .ok others other ∧
        ExchangeVenue.Projects view ids reached other ∧
        ∀ instrumentId, view.inside instrumentId = true →
          results.get? instrumentId = others.get? instrumentId := by
  rw [ExchangeVenue.executeBatch, bind_apply, get_apply] at returns ⊢
  dsimp only at returns ⊢
  rw [← projects.phase]
  by_cases batch : left.currentPhaseState.executionStyle = .batch
  · rw [if_pos batch] at returns ⊢
    exact runBatchEngine_follows projects sub returns
  · rw [if_neg batch] at returns ⊢
    cases returns
    exact ⟨∅, right, rfl, projects, fun _ _ => rfl⟩

theorem executeOpeningAuction_follows
    (projects : ExchangeVenue.Projects view ids left right)
    (sub : ids ⊆ view.mine)
    (returns :
      ExchangeVenue.executeOpeningAuction draw left = .ok ⟨⟩ reached) :
    ∃ other,
      ExchangeVenue.executeOpeningAuction draw right = .ok ⟨⟩ other ∧
        ExchangeVenue.Projects view ids reached other := by
  rw [ExchangeVenue.executeOpeningAuction, bind_apply] at returns ⊢
  cases ran : ExchangeVenue.runBatchEngine draw left with
  | error raised middle =>
      rw [ran] at returns
      cases returns
  | ok results middle =>
      rw [ran] at returns
      cases returns
      rcases runBatchEngine_follows projects sub ran with
        ⟨others, other, otherRan, states, _⟩
      rw [otherRan]
      exact ⟨other, rfl, states⟩

end Batch

/-! ## The close of the day -/

section Close

variable {instrumentId : String} {order : Order}

theorem cancelAtClose_both
    (projects : ExchangeVenue.Projects view ids left right)
    (inside : view.inside instrumentId = true) :
    Lockstep (ExchangeVenue.Projects view ids)
      (ExchangeVenue.cancelAtClose instrumentId order)
      (ExchangeVenue.cancelAtClose instrumentId order) left right := by
  have onMarket : Lockstep (ExchangeVenue.Projects view ids)
      (ExchangeVenue.onMarket (Market.onBook instrumentId
        (OrderBook.cancelOrder order.orderId)))
      (ExchangeVenue.onMarket (Market.onBook instrumentId
        (OrderBook.cancelOrder order.orderId))) left right :=
    Lockstep.zooms
      (projects.market.onBook_both inside
        (cancelOrder_local ids order.orderId))
      fun _ _ market => { projects with market }
  rw [ExchangeVenue.cancelAtClose]
  apply onMarket.bind
  intro cancelled reached other states
  cases cancelled with
  | none => exact Lockstep.returns _ states
  | some cancelled =>
      exact Lockstep.modifies
        { states with known := states.known_erase order.orderId }

theorem cancelAtClose_alone
    (projects : ExchangeVenue.Projects view ids left right)
    (sub : ids ⊆ view.mine)
    (outside : view.inside instrumentId = false)
    (other : order.orderId ∉ view.mine) :
    Ends (ExchangeVenue.cancelAtClose instrumentId order) left
      (fun _ next => ExchangeVenue.Projects view ids next right)
      (fun _ next => ExchangeVenue.Projects view ids next right) := by
  have market := projects.market.onBook_alone sub outside
    (cancelOrder_local view.mineᶜ order.orderId)
  have onMarket : ExchangeVenue.Projects view ids
      (finalState (ExchangeVenue.onMarket
        (Market.onBook instrumentId
          (OrderBook.cancelOrder order.orderId)) left)) right := by
    rw [ExchangeVenue.onMarket, finalState_zoom]
    exact { projects with market }
  rw [ExchangeVenue.cancelAtClose]
  apply (Ends.of_finalState
    (fun next => ExchangeVenue.Projects view ids next right)
    onMarket).bind
  intro cancelled next states
  cases cancelled with
  | none => exact states
  | some cancelled => exact states.erase_alone other

/-- The book of a listed instrument is emptied on both sides. -/
theorem cancelBook_follows
    (projects : ExchangeVenue.Projects view ids left right)
    (sub : ids ⊆ view.mine) {reached : ExchangeVenue}
    (returns :
      ExchangeVenue.cancelBook instrumentId left = .ok ⟨⟩ reached) :
    ∃ other, ExchangeVenue.cancelBook instrumentId right = .ok ⟨⟩ other ∧
      ExchangeVenue.Projects view ids reached other := by
  rw [ExchangeVenue.cancelBook, bind_apply, get_apply] at returns ⊢
  dsimp only at returns ⊢
  cases found : left.market.orderBooks.get? instrumentId with
  | none =>
      rw [found] at returns
      cases returns
  | some book =>
      rw [found] at returns
      cases inside : view.inside instrumentId with
      | true =>
          rw [← projects.market.books instrumentId inside, found]
          have lockstep : Lockstep (ExchangeVenue.Projects view ids)
              (book.resting.forM
                (ExchangeVenue.cancelAtClose instrumentId))
              (book.resting.forM
                (ExchangeVenue.cancelAtClose instrumentId))
              left right :=
            Lockstep.forM
              (fun _ _ _ _ states => states.cancelAtClose_both inside)
              projects
          exact lockstep.elim_ok returns
      | false =>
          rcases (OrderedDict.contains_iff_exists _ _).mp
              ((projects.contains_iff instrumentId).mp
                (OrderedDict.contains_of_get? found)) with
            ⟨bare, otherFound⟩
          have empty := (projects.market.bare instrumentId bare inside
            otherFound).resting_eq_nil
          have keeps : Keeps
              (fun next => ExchangeVenue.Projects view ids next right)
              (book.resting.forM
                (ExchangeVenue.cancelAtClose instrumentId)) := by
            apply Keeps.forM
            intro order member next states
            exact states.cancelAtClose_alone sub inside
              ((projects.market.outside instrumentId book inside
                found).of_mem_resting member)
          refine ⟨right, ?_, (keeps left projects).elim_ok returns⟩
          rw [otherFound]
          change bare.resting.forM
            (ExchangeVenue.cancelAtClose instrumentId) right = _
          rw [empty]
          rfl

theorem cancelAllOrders_follows
    (projects : ExchangeVenue.Projects view ids left right)
    (sub : ids ⊆ view.mine) {reached : ExchangeVenue}
    (returns : ExchangeVenue.cancelAllOrders left = .ok ⟨⟩ reached) :
    ∃ other, ExchangeVenue.cancelAllOrders right = .ok ⟨⟩ other ∧
      ExchangeVenue.Projects view ids reached other := by
  rw [ExchangeVenue.cancelAllOrders, bind_apply, get_apply] at returns ⊢
  dsimp only at returns ⊢
  rw [← projects.market.keys]
  apply forM_follows _ projects returns
  intro key _ first second reached states ran
  exact states.cancelBook_follows sub ran

end Close

/-! ## Phase transitions -/

section Transitions

variable {draw : String → ℚ} {reached : ExchangeVenue}

theorem observing
    (projects : ExchangeVenue.Projects view ids left right)
    (observed : PhaseState) :
    ExchangeVenue.Projects view ids (left.observing observed)
      (right.observing observed) :=
  { projects with
    phase := rfl
    last := rfl }

theorem handleTransition_follows
    (projects : ExchangeVenue.Projects view ids left right)
    (sub : ids ⊆ view.mine) (previous current : PhaseType)
    (returns :
      ExchangeVenue.handleTransition draw previous current left =
        .ok ⟨⟩ reached) :
    ∃ other,
      ExchangeVenue.handleTransition draw previous current right =
          .ok ⟨⟩ other ∧
        ExchangeVenue.Projects view ids reached other := by
  have nothing : ∀ {state : ExchangeVenue},
      (pure ⟨⟩ : VenueM PUnit) left = .ok ⟨⟩ state →
        ∃ other, (pure ⟨⟩ : VenueM PUnit) right = .ok ⟨⟩ other ∧
          ExchangeVenue.Projects view ids state other := by
    intro state same
    cases same
    exact ⟨right, rfl, projects⟩
  cases previous <;> cases current <;>
    first
      | exact executeOpeningAuction_follows projects sub returns
      | exact cancelAllOrders_follows projects sub returns
      | exact nothing returns

theorem checkPhaseTransitions_follows
    (projects : ExchangeVenue.Projects view ids left right)
    (sub : ids ⊆ view.mine) (observed : PhaseState)
    (returns :
      ExchangeVenue.checkPhaseTransitions observed draw left =
        .ok ⟨⟩ reached) :
    ∃ other,
      ExchangeVenue.checkPhaseTransitions observed draw right =
          .ok ⟨⟩ other ∧
        ExchangeVenue.Projects view ids reached other := by
  have first := checkPhaseTransitions_apply left observed draw
  have second := checkPhaseTransitions_apply right observed draw
  rw [returns] at first
  rw [← projects.last] at second
  cases last : left.lastPhase with
  | none =>
      rw [last] at first second
      cases first
      exact ⟨_, second, projects.observing observed⟩
  | some previous =>
      rw [last] at first second
      by_cases same : previous = observed.phaseType
      · simp only [if_pos same] at first second
        cases first
        exact ⟨_, second, projects.observing observed⟩
      · simp only [if_neg same] at first second
        rcases (projects.observing observed).handleTransition_follows sub
            previous observed.phaseType first.symm with
          ⟨other, otherRan, states⟩
        exact ⟨other, second.trans otherRan, states⟩

end Transitions

end ExchangeVenue.Projects

/-! ## Every call -/

/-- The venue knows no more ids than before. -/
def KnownWithin (known : Finset String) (venue : ExchangeVenue) : Prop :=
  venue.allOrderIds ⊆ known

theorem onMarket_knownWithin {α : Type} (known : Finset String)
    (program : MarketM α) :
    Keeps (KnownWithin known) (ExchangeVenue.onMarket program) := by
  intro venue within
  apply Ends.of_finalState
  rw [ExchangeVenue.onMarket, finalState_zoom]
  exact within

theorem runBatchEngine_knownWithin (known : Finset String)
    (draw : String → ℚ) :
    Keeps (KnownWithin known) (ExchangeVenue.runBatchEngine draw) := by
  intro venue within
  have applied := runBatchEngine_apply venue draw
  cases ran : BatchMatchingEngine.runBatch draw venue.pendingOrders
      { market := venue.market, results := ∅ } with
  | ok results context =>
      rw [ran] at applied
      exact Ends.of_ok applied within
  | error raised context =>
      rw [ran] at applied
      exact Ends.of_error applied within

theorem cancelAllOrders_knownWithin (known : Finset String) :
    Keeps (KnownWithin known) ExchangeVenue.cancelAllOrders := by
  have forget : ∀ orderId,
      Keeps (KnownWithin known)
        (modify fun venue : ExchangeVenue =>
          { venue with
            allOrderIds := venue.allOrderIds.erase orderId } :
          VenueM PUnit) :=
    fun orderId venue within =>
      (Finset.erase_subset orderId _).trans within
  have atClose : ∀ instrumentId order,
      Keeps (KnownWithin known)
        (ExchangeVenue.cancelAtClose instrumentId order) := by
    intro instrumentId order
    rw [ExchangeVenue.cancelAtClose]
    apply (onMarket_knownWithin known _).bind
    intro cancelled
    cases cancelled with
    | none => exact Keeps.pure _
    | some cancelled => exact forget order.orderId
  have oneBook : ∀ instrumentId,
      Keeps (KnownWithin known)
        (ExchangeVenue.cancelBook instrumentId) := by
    intro instrumentId venue within
    rw [ExchangeVenue.cancelBook, ends_get_bind]
    cases venue.market.orderBooks.get? instrumentId with
    | none => exact within
    | some book =>
        exact Keeps.forM (fun order _ => atClose instrumentId order) venue
          within
  intro venue within
  rw [ExchangeVenue.cancelAllOrders, ends_get_bind]
  exact Keeps.forM (fun instrumentId _ => oneBook instrumentId) venue
    within

/-- Only a submission adds an id. -/
def VenueCall.IsSubmission : VenueCall → Prop
  | .submitOrder _ => True
  | _ => False

theorem execute_knownWithin {venue : ExchangeVenue} {call : VenueCall}
    (shape : VenueShape venue) (other : ¬ call.IsSubmission) :
    KnownWithin venue.allOrderIds (call.execute venue) := by
  have start : KnownWithin venue.allOrderIds venue := Finset.Subset.refl _
  have auction : ∀ draw, Keeps (KnownWithin venue.allOrderIds)
      (ExchangeVenue.executeOpeningAuction draw) :=
    fun draw => (runBatchEngine_knownWithin _ draw).bind
      fun _ => Keeps.pure _
  cases call with
  | submitOrder order => exact absurd trivial other
  | listInstrument instrument =>
      apply finalState_of_ends
      refine (listInstrument_ends shape instrument).mono ?_ ?_
      · rintro _ next ⟨_, rfl⟩
        exact start
      · rintro _ next rfl
        exact start
  | cancelOrder orderId traderId =>
      rw [VenueCall.execute]
      rcases cancelOrder_cases_venue shape orderId traderId with
        ⟨order, next, _, evaluates, cancelled⟩ |
          ⟨_, evaluates | ⟨exception, evaluates⟩⟩
      · rw [evaluates, finalState_ok, cancelled.rest]
        exact Finset.erase_subset _ _
      · rw [evaluates]
        exact start
      · rw [evaluates]
        exact start
  | executeBatch draw =>
      apply finalState_of_ends
      rw [ExchangeVenue.executeBatch, ends_get_bind]
      by_cases batch : venue.currentPhaseState.executionStyle = .batch
      · rw [if_pos batch]
        exact runBatchEngine_knownWithin _ draw venue start
      · rw [if_neg batch]
        exact start
  | executeOpeningAuction draw =>
      exact finalState_of_ends (auction draw venue start)
  | cancelAllOrders =>
      exact finalState_of_ends
        (cancelAllOrders_knownWithin _ venue start)
  | checkPhaseTransitions observed draw =>
      have applied := checkPhaseTransitions_apply venue observed draw
      have observing : KnownWithin venue.allOrderIds
          (venue.observing observed) := start
      rw [VenueCall.execute]
      cases last : venue.lastPhase with
      | none =>
          rw [last] at applied
          rw [applied]
          exact observing
      | some previous =>
          rw [last] at applied
          by_cases same : previous = observed.phaseType
          · simp only [if_pos same] at applied
            rw [applied]
            exact observing
          · simp only [if_neg same] at applied
            rw [applied]
            have keeps : Keeps (KnownWithin venue.allOrderIds)
                (ExchangeVenue.handleTransition draw previous
                  observed.phaseType) := by
              cases previous <;> cases observed.phaseType <;>
                first
                  | exact auction draw
                  | exact cancelAllOrders_knownWithin _
                  | exact Keeps.pure _
            exact keeps.finalState observing

/-- The call is no submission, or one which concerns the view. -/
def VenueCall.InView (view : View) : VenueCall → Prop
  | .submitOrder order =>
      view.inside order.instrumentId = true ∧ order.orderId ∈ view.mine
  | .cancelOrder orderId _ => orderId ∈ view.mine
  | _ => True

/-- The orders of the chosen instruments are those of the view. -/
def ExchangeVenue.Owned (view : View) (venue : ExchangeVenue) : Prop :=
  ∀ order ∈ venue.market.heap.orders,
    view.inside order.instrumentId = true → order.orderId ∈ view.mine

namespace ExchangeVenue.Projects

variable {view : View} {ids : Set String} {left right : ExchangeVenue}

/-- In a sound venue the live orders of the view are known. -/
theorem shows (projects : ExchangeVenue.Projects view ids left right)
    (sound : VenueSound left) (owned : left.Owned view)
    (sub : view.ids left.allOrderIds ⊆ ids) :
    ExchangeVenue.Shows view left right := by
  have live : ∀ order, left.Live order →
      view.inside order.instrumentId = true →
        order.orderId ∈ view.ids left.allOrderIds := by
    intro order isLive inside
    exact ⟨sound.known order isLive,
      owned order (sound.shape.live_taken isLive) inside⟩
  exact
    { projects with
      market :=
        { projects.market with
          heap := projects.market.heap.mono sub
          within := by
            intro instrumentId book inside found side level member order
              inLevel
            have resting : order ∈ book.resting :=
              OrderBook.mem_resting_of_mem
                (OrderBook.mem_restingOn_iff.mpr ⟨level, member, inLevel⟩)
            apply live order (Or.inl ⟨instrumentId, book, found, resting⟩)
            rw [sound.shape.market.instrument_of_rests found resting]
            exact inside }
      covers := by
        intro collected member order inCollected
        have facts := projects.covers collected member order inCollected
        refine ⟨facts.1, ?_⟩
        cases inside : view.inside collected.1 with
        | true =>
            rw [if_pos rfl]
            apply live order
            · exact Or.inr
                ⟨collected.1, collected.2,
                  (left.pendingOrders.get?_eq_some_iff _ _).mpr member,
                  inCollected⟩
            · rw [facts.1]
              exact inside
        | false =>
            rw [inside] at facts
            exact facts.2 }

/-- A call which is seen runs on both venues. -/
theorem execute_both {call : VenueCall}
    (projects : ExchangeVenue.Shows view left right)
    (sound : VenueSound left) (next : VenueSound (call.execute left))
    (owned : (call.execute left).Owned view)
    (inView : call.InView view) :
    ExchangeVenue.Shows view (call.execute left)
      (call.execute right) := by
  have sub := view.ids_subset left.allOrderIds
  have again : ¬ call.IsSubmission →
      ExchangeVenue.Projects view (view.ids left.allOrderIds)
          (call.execute left) (call.execute right) →
        ExchangeVenue.Shows view (call.execute left)
          (call.execute right) := by
    intro other reached
    apply reached.shows next owned
    intro orderId member
    exact ⟨execute_knownWithin sound.shape other member.1, member.2⟩
  cases call with
  | submitOrder order =>
      exact (submitOrder_both projects inView.1 inView.2).finalState
  | listInstrument instrument =>
      apply again id
      exact (projects.listInstrument_both instrument).finalState
  | cancelOrder orderId traderId =>
      apply again id
      exact (cancelOrder_both projects sub inView).finalState
  | executeBatch draw =>
      apply again id
      rw [VenueCall.execute, VenueCall.execute]
      cases ran : ExchangeVenue.executeBatch draw left with
      | error raised reached =>
          exact ((executeBatch_sound sound draw).elim_error ran).elim
      | ok results reached =>
          rcases executeBatch_follows projects sub ran with
            ⟨others, other, otherRan, states, _⟩
          rw [otherRan]
          exact states
  | executeOpeningAuction draw =>
      apply again id
      rw [VenueCall.execute, VenueCall.execute]
      cases ran : ExchangeVenue.executeOpeningAuction draw left with
      | error raised reached =>
          exact
            ((executeOpeningAuction_sound sound draw).elim_error ran).elim
      | ok value reached =>
          rcases executeOpeningAuction_follows projects sub ran with
            ⟨other, otherRan, states⟩
          rw [otherRan]
          exact states
  | cancelAllOrders =>
      apply again id
      rw [VenueCall.execute, VenueCall.execute]
      cases ran : ExchangeVenue.cancelAllOrders left with
      | error raised reached =>
          exact ((cancelAllOrders_sound sound).elim_error ran).elim
      | ok value reached =>
          rcases cancelAllOrders_follows projects sub ran with
            ⟨other, otherRan, states⟩
          rw [otherRan]
          exact states
  | checkPhaseTransitions observed draw =>
      apply again id
      rw [VenueCall.execute, VenueCall.execute]
      cases ran : ExchangeVenue.checkPhaseTransitions observed draw left with
      | error raised reached =>
          exact ((checkPhaseTransitions_sound sound observed
            draw).elim_error ran).elim
      | ok value reached =>
          rcases checkPhaseTransitions_follows projects sub observed ran with
            ⟨other, otherRan, states⟩
          rw [otherRan]
          exact states

end ExchangeVenue.Projects

end InternTradingGame
