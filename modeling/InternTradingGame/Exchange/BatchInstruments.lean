import InternTradingGame.Exchange.VenueSound
import InternTradingGame.Exchange.Locality

/-!
# A batch, one instrument after another

A batch matches the collected orders of each instrument in turn.  Matching
an instrument neither reads nor writes what belongs to another one, so each
instrument finds its book, its orders and its results as the batch found
them.  `matchBatchOrders_ends` is the rule of this loop.
-/

namespace InternTradingGame

open Effects

/-! ## What a batch needs -/

/-- The collected orders wait for the batch, and nothing of them is filled. -/
structure BatchReady (market : Market) (pending : PendingOrders) :
    Prop where
  sound : MarketSound market
  waiting : ∀ order ∈ ordersOf pending.entries, Waiting market order
  distinct : (ordersOf pending.entries).Nodup
  inside : ∀ collected ∈ pending.entries, ∀ order ∈ collected.2,
    order.instrumentId = collected.1
  fresh : ∀ order ∈ ordersOf pending.entries,
    market.heap.remaining order = order.quantity

/-- The orders collected by a venue are ready, when none has traded. -/
theorem VenueSound.ready {venue : ExchangeVenue} (sound : VenueSound venue)
    (fresh : ∀ order ∈ ordersOf venue.pendingOrders.entries,
      venue.market.heap.remaining order = order.quantity) :
    BatchReady venue.market venue.pendingOrders where
  sound := sound.market
  waiting := sound.batch.waiting
  distinct := sound.batch.distinct
  inside := sound.shape.inside
  fresh := fresh

/-- The context a batch starts with. -/
def BatchContext.start (market : Market) : BatchContext where
  market := market
  results := ∅

/-- What belongs to an instrument is as the batch found it. -/
structure AsFound (market : Market) (instrumentId : String)
    (context : BatchContext) : Prop where
  book : context.market.orderBooks.get? instrumentId =
    market.orderBooks.get? instrumentId
  remaining : ∀ order ∈ market.heap.orders,
    order.instrumentId = instrumentId →
      context.market.heap.remaining order = market.heap.remaining order
  results : context.results.get? instrumentId = none

/-- The ids of the orders of an instrument. -/
def idsAt (market : Market) (instrumentId : String) : Set String :=
  { orderId | ∃ order ∈ market.heap.orders,
    order.instrumentId = instrumentId ∧ order.orderId = orderId }

/-- What holds while some instruments have still to be matched. -/
structure StillToMatchOf (market : Market)
    (later : List (String × List Order)) (context : BatchContext) :
    Prop where
  batch : BatchSound (ordersOf later) context
  orders : context.market.heap.orders = market.heap.orders
  found : ∀ collected ∈ later, AsFound market collected.1 context

/-! ## Matching touches one instrument -/

section Touched

variable {market : Market} {instrumentId other : String}
  {orders : List Order} {context reached : BatchContext}

/-- Matching an instrument touches nothing that belongs to another one. -/
theorem matchInstrument_touched (draw : String → ℚ)
    (covered : ∀ order ∈ orders, order ∈ context.market.heap.orders ∧
      order.instrumentId = instrumentId)
    (shape : MarketShape context.market) :
    Ends
      (BatchMatchingEngine.matchInstrument draw (instrumentId, orders))
      context
      (fun _ reached => BatchContext.Touched
        (idsAt context.market instrumentId) instrumentId context reached)
      (fun _ _ => True) := by
  have within : ∀ book,
      context.market.orderBooks.get? instrumentId = some book →
        book.instrumentId = instrumentId ∧
          book.Within (idsAt context.market instrumentId) := by
    intro book found
    refine ⟨shape.named _ book found, ?_⟩
    intro side level levelMember order inLevel
    have member : order ∈ book.resting := OrderBook.mem_resting_of_mem
      (OrderBook.mem_restingOn_iff.mpr ⟨level, levelMember, inLevel⟩)
    exact ⟨order, shape.registered order ⟨_, book, found, member⟩,
      shape.instrument_of_rests found member, rfl⟩
  have touched : Market.Touched (idsAt context.market instrumentId)
      instrumentId context.market context.market :=
    Market.Touched.refl _
  let scope : Scope BatchContext :=
    { ids := idsAt context.market instrumentId
      seen := fun _ => true
      instrumentId := instrumentId
      first := context
      second := context }
  have alike : BatchContext.Alike scope context context :=
    ⟨⟨Heap.Alike.refl _, touched, touched, rfl, within⟩, rfl,
      fun _ _ => rfl, fun _ _ => rfl⟩
  have covers : scope.Covers orders := by
    intro order member
    rcases covered order member with ⟨taken, instrument⟩
    exact ⟨⟨order, taken, instrument, rfl⟩, instrument⟩
  refine (matchInstrument_alike draw covers alike).ends.mono ?_
    fun _ _ _ => trivial
  intro _ reached holds
  exact ⟨holds.market.first, holds.first⟩

/-- The orders of other instruments have as much left as before. -/
theorem remaining_touched {order : Order}
    (distinct : (market.heap.orders.map Order.orderId).Nodup)
    (orders : context.market.heap.orders = market.heap.orders)
    (touched : BatchContext.Touched (idsAt context.market instrumentId)
      instrumentId context reached)
    (taken : order ∈ market.heap.orders)
    (different : order.instrumentId ≠ instrumentId) :
    reached.market.heap.remaining order =
      context.market.heap.remaining order := by
  apply touched.market.heap.remaining
  rintro ⟨candidate, candidateTaken, inside, equal⟩
  rw [orders] at candidateTaken
  rcases List.inj_on_of_nodup_map distinct candidateTaken taken
    equal with rfl
  exact different inside

/-- What belongs to another instrument is found as before. -/
theorem AsFound.touched (found : AsFound market other context)
    (different : other ≠ instrumentId)
    (distinct : (market.heap.orders.map Order.orderId).Nodup)
    (orders : context.market.heap.orders = market.heap.orders)
    (touched : BatchContext.Touched (idsAt context.market instrumentId)
      instrumentId context reached) :
    AsFound market other reached where
  book := (touched.market.books other different).trans found.book
  remaining := by
    intro order taken instrument
    rw [← found.remaining order taken instrument]
    apply remaining_touched distinct orders touched taken
    rw [instrument]
    exact different
  results := (touched.results other different).trans found.results

/-- The orders of an instrument which is not listed are left alone. -/
theorem matchInstrument_unlisted (draw : String → ℚ)
    (found : context.market.orderBooks.get? instrumentId = none) :
    BatchMatchingEngine.matchInstrument draw (instrumentId, orders)
      context = .ok ⟨⟩ context := by
  have absent : ¬ context.market.orderBooks.Contains instrumentId := by
    rw [OrderedDict.contains_iff_exists, found]
    rintro ⟨_, impossible⟩
    cases impossible
  rw [BatchMatchingEngine.matchInstrument, bind_apply, get_apply]
  simp only [if_neg absent]
  rfl

end Touched

/-! ## The rule of the loop -/

section Rule

variable {market : Market} {pending : PendingOrders}

/-- The instruments of a batch are different. -/
theorem entries_apart {entries : PendingOrders}
    {done later : List (String × List Order)}
    {collected : String × List Order}
    (split : entries.entries = done ++ collected :: later) :
    ∀ other ∈ done ++ later, other.1 ≠ collected.1 := by
  have keys := entries.distinctKeys
  rw [split, List.map_append, List.map_cons] at keys
  have apart := List.nodup_middle.mp keys
  intro other member equal
  apply (List.nodup_cons.mp apart).1
  rw [← List.map_append, ← equal]
  exact List.mem_map_of_mem member

/--
What the matching of one instrument turns into the next holds after the
whole loop, which never raises.
-/
theorem matchBatchOrders_ends (draw : String → ℚ)
    (ready : BatchReady market pending)
    (holds : List (String × List Order) → BatchContext → Prop)
    (start : holds [] (BatchContext.start market))
    (step : ∀ done collected later context reached,
      pending.entries = done ++ collected :: later →
      StillToMatchOf market (collected :: later) context →
      holds done context →
      BatchMatchingEngine.matchInstrument draw collected context =
        .ok ⟨⟩ reached →
      BatchContext.Touched (idsAt context.market collected.1) collected.1
        context reached →
        holds (done ++ [collected]) reached) :
    Ends (BatchMatchingEngine.matchBatchOrders draw pending)
      (BatchContext.start market)
      (fun _ reached =>
        MarketSound reached.market ∧ holds pending.entries reached)
      (fun _ _ => False) := by
  have still : StillToMatchOf market pending.entries
      (BatchContext.start market) :=
    ⟨⟨ready.sound, ready.waiting, ready.distinct⟩, rfl,
      fun _ _ => ⟨rfl, fun _ _ _ => rfl, rfl⟩⟩
  have loop : Ends (BatchMatchingEngine.matchBatchOrders draw pending)
      (BatchContext.start market)
      (fun _ context => ∃ done, pending.entries = done ++ [] ∧
        StillToMatchOf market [] context ∧ holds done context)
      (fun _ _ => False) := by
    refine Ends.forM
      (fun later context => ∃ done, pending.entries = done ++ later ∧
        StillToMatchOf market later context ∧ holds done context)
      ?_ pending.entries ⟨[], rfl, still, start⟩
    rintro collected later context ⟨done, split, still, sofar⟩
    have member : collected ∈ pending.entries := by
      rw [split]
      exact List.mem_append_right _ List.mem_cons_self
    have sound := matchInstrument_sound draw still.batch
      (ready.inside collected member)
    rcases sound.exists_ok with ⟨_, reached, evaluated, batch⟩
    have touched := (matchInstrument_touched draw
      (fun order inOrders =>
        ⟨(still.batch.waiting order
            (List.mem_append_left _ inOrders)).taken,
          ready.inside collected member order inOrders⟩)
      still.batch.sound.shape).elim_ok evaluated
    apply Ends.of_ok evaluated
    refine ⟨done ++ [collected], ?_, ⟨batch, ?_, ?_⟩, ?_⟩
    · rw [split, List.append_assoc]
      rfl
    · exact touched.market.heap.orders.trans still.orders
    · intro other otherMember
      exact (still.found other
        (List.mem_cons_of_mem _ otherMember)).touched
          (entries_apart split other
            (List.mem_append_right _ otherMember))
          ready.sound.shape.distinct still.orders touched
    · exact step done collected later context reached split still sofar
        evaluated touched
  refine loop.mono ?_ fun _ _ impossible => impossible
  rintro _ reached ⟨done, split, finished, sofar⟩
  rw [List.append_nil] at split
  exact ⟨finished.batch.sound, split ▸ sofar⟩

/-! ## The orders of one instrument -/

/-- The collected orders of an instrument, when its turn comes. -/
structure InTurn (instrumentId : String) (orders : List Order)
    (state : BookState) : Prop where
  invariant : BookInv state
  named : state.book.instrumentId = instrumentId
  distinct : (orders.map Order.orderId).Nodup
  instrument : ∀ order ∈ orders, order.instrumentId = instrumentId
  whole : ∀ order ∈ orders, Whole order.quantity
  unfilled : ∀ order ∈ orders,
    state.heap.remaining order = order.quantity
  absent : ∀ order ∈ orders, order.orderId ∉ state.book.orderIds

/-- What rests at the instrument is as the batch found it. -/
theorem StillToMatchOf.resting {context : BatchContext}
    {later : List (String × List Order)} {collected : String × List Order}
    {book : OrderBook}
    (still : StillToMatchOf market (collected :: later) context)
    (found : context.market.orderBooks.get? collected.1 = some book) :
    ∀ order ∈ book.resting, context.market.heap.remaining order =
      market.heap.remaining order := by
  intro order resting
  have taken := still.batch.sound.shape.registered order
    ⟨_, book, found, resting⟩
  rw [still.orders] at taken
  exact (still.found collected List.mem_cons_self).remaining order taken
    (still.batch.sound.shape.instrument_of_rests found resting)

theorem StillToMatchOf.inTurn {context : BatchContext}
    {done later : List (String × List Order)}
    {collected : String × List Order} {book : OrderBook}
    (ready : BatchReady market pending)
    (split : pending.entries = done ++ collected :: later)
    (still : StillToMatchOf market (collected :: later) context)
    (found :
      context.market.orderBooks.get? collected.1 = some book) :
    InTurn collected.1 collected.2 ⟨context.market.heap, book⟩ := by
  have shape := still.batch.sound.shape
  have member : collected ∈ pending.entries := by
    rw [split]
    exact List.mem_append_right _ List.mem_cons_self
  have waits : ∀ order ∈ collected.2, Waiting context.market order :=
    fun order inOrders =>
      still.batch.waiting order (List.mem_append_left _ inOrders)
  have inside := ready.inside collected member
  have unfilled : ∀ order ∈ collected.2,
      context.market.heap.remaining order = order.quantity := by
    intro order inOrders
    have taken := (waits order inOrders).taken
    rw [still.orders] at taken
    rw [(still.found collected List.mem_cons_self).remaining order taken
      (inside order inOrders)]
    exact ready.fresh order
      (List.mem_flatMap.mpr ⟨collected, member, inOrders⟩)
  constructor
  · exact still.batch.sound.bookInv found
  · exact shape.named _ book found
  · apply List.Nodup.map_on
    · intro first firstMember second secondMember equal
      exact shape.eq_of_orderId_eq (waits first firstMember).taken
        (waits second secondMember).taken equal
    · exact (List.nodup_append.mp still.batch.distinct).1
  · exact inside
  · intro order inOrders
    rw [← unfilled order inOrders]
    exact (still.batch.sound.fillable order
      (waits order inOrders).taken).whole
  · exact unfilled
  · intro order inOrders present
    rcases ((shape.books _ book found).ids _).mp present with
      ⟨other, resting, equal⟩
    have rests : context.market.Rests other :=
      ⟨_, book, found, resting⟩
    rcases shape.eq_of_orderId_eq (shape.registered other rests)
      (waits order inOrders).taken equal with rfl
    exact (waits other inOrders).away rests

end Rule

end InternTradingGame
