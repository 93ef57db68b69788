import InternTradingGame.OrderBook.Book

/-!
# The shape of a well-formed book

`BookShape` is what holds of a book whatever the quantities of its orders
are: the levels of each side are strictly sorted and occupied, every order
stands on its own side at its own price, the two indexes list exactly the
resting orders, and the two sides do not cross.

It also holds of the books that an exception leaves behind, so it is kept
apart from the facts about quantities.

An operation changes the shape in two ways only: an order leaves a side or
an order joins a side.  `Removed` and `Inserted` describe these two changes,
and each keeps the shape.
-/

namespace InternTradingGame

/-! ## Price priority -/

/-- The first price stands strictly before the second on this side. -/
def OrderSide.Better : OrderSide → ℚ → ℚ → Prop
  | .buy, first, second => second < first
  | .sell, first, second => first < second

namespace OrderSide

variable {side : OrderSide} {first second third : ℚ}

theorem Better.trans
    (left : side.Better first second)
    (right : side.Better second third) :
    side.Better first third := by
  cases side with
  | buy => exact lt_trans right left
  | sell => exact lt_trans left right

theorem Better.ne (better : side.Better first second) :
    first ≠ second := by
  cases side with
  | buy => exact (ne_of_lt better).symm
  | sell => exact ne_of_lt better

theorem Better.asymm (better : side.Better first second) :
    ¬ side.Better second first := by
  cases side with
  | buy => exact lt_asymm better
  | sell => exact lt_asymm better

theorem better_or_better (different : first ≠ second) :
    side.Better first second ∨ side.Better second first := by
  cases side with
  | buy => exact (lt_or_gt_of_ne different).symm
  | sell => exact lt_or_gt_of_ne different

theorem better_opposite :
    side.opposite.Better first second ↔ side.Better second first := by
  cases side <;> rfl

end OrderSide

namespace Order

theorem refuses_iff (order : Order) (price : ℚ) :
    order.Refuses price ↔
      ∃ limit, order.price = some limit ∧
        order.side.Better price limit := by
  unfold Refuses
  cases order.price with
  | none => simp
  | some limit =>
      cases order.side <;> simp [OrderSide.Better]

/-- A price worse than a refused one is refused as well. -/
theorem Refuses.worse {order : Order} {near far : ℚ}
    (refuses : order.Refuses near)
    (further : order.side.opposite.Better near far) :
    order.Refuses far := by
  rcases (order.refuses_iff near).mp refuses with ⟨limit, priced, beyond⟩
  exact (order.refuses_iff far).mpr
    ⟨limit, priced,
      (OrderSide.better_opposite.mp further).trans beyond⟩

end Order

/-! ## Reading and changing one side -/

namespace OrderBook

variable (book : OrderBook) (side : OrderSide)
  (changed : List PriceLevel) (trade : Trade)

@[simp]
theorem levels_setLevels_self :
    (book.setLevels side changed).levels side = changed := by
  cases side <;> rfl

@[simp]
theorem levels_setLevels_opposite :
    (book.setLevels side changed).levels side.opposite =
      book.levels side.opposite := by
  cases side <;> rfl

@[simp]
theorem setLevels_setLevels (again : List PriceLevel) :
    (book.setLevels side changed).setLevels side again =
      book.setLevels side again := by
  cases side <;> rfl

@[simp]
theorem setLevels_instrumentId :
    (book.setLevels side changed).instrumentId = book.instrumentId := by
  cases side <;> rfl

@[simp]
theorem setLevels_orderIds :
    (book.setLevels side changed).orderIds = book.orderIds := by
  cases side <;> rfl

@[simp]
theorem setLevels_orderPriceMap :
    (book.setLevels side changed).orderPriceMap =
      book.orderPriceMap := by
  cases side <;> rfl

@[simp]
theorem setLevels_trades :
    (book.setLevels side changed).trades = book.trades := by
  cases side <;> rfl

@[simp]
theorem levels_appendTrade :
    (book.appendTrade trade).levels side = book.levels side := by
  cases side <;> rfl

@[simp]
theorem appendTrade_instrumentId :
    (book.appendTrade trade).instrumentId = book.instrumentId := by
  simp only [appendTrade]

@[simp]
theorem appendTrade_orderIds :
    (book.appendTrade trade).orderIds = book.orderIds := by
  simp only [appendTrade]

@[simp]
theorem appendTrade_orderPriceMap :
    (book.appendTrade trade).orderPriceMap = book.orderPriceMap := by
  simp only [appendTrade]

/-- All resting orders, on either side. -/
def resting : List Order :=
  book.restingOn .buy ++ book.restingOn .sell

variable {book side}

theorem mem_resting_iff {order : Order} :
    order ∈ book.resting ↔
      order ∈ book.restingOn side ∨
        order ∈ book.restingOn side.opposite := by
  rw [resting, List.mem_append]
  cases side with
  | buy => rfl
  | sell => exact Or.comm

theorem mem_resting_of_mem {order : Order}
    (member : order ∈ book.restingOn side) :
    order ∈ book.resting :=
  mem_resting_iff.mpr (Or.inl member)

theorem restingOn_sublist (side : OrderSide) :
    (book.restingOn side).Sublist book.resting := by
  cases side with
  | buy => exact List.sublist_append_left _ _
  | sell => exact List.sublist_append_right _ _

theorem exists_side {order : Order} (member : order ∈ book.resting) :
    ∃ side, order ∈ book.restingOn side := by
  rcases List.mem_append.mp member with buy | sell
  · exact ⟨.buy, buy⟩
  · exact ⟨.sell, sell⟩

theorem resting_perm :
    book.resting.Perm
      (book.restingOn side ++ book.restingOn side.opposite) := by
  cases side with
  | buy => exact List.Perm.refl _
  | sell => exact List.perm_append_comm

theorem mem_restingOn_iff {order : Order} :
    order ∈ book.restingOn side ↔
      ∃ level ∈ book.levels side, order ∈ level.orders := by
  simp [restingOn, List.mem_flatMap]

theorem restingOn_congr {other : OrderBook}
    (equal : book.levels side = other.levels side) :
    book.restingOn side = other.restingOn side := by
  rw [restingOn, restingOn, equal]

end OrderBook

/-- A level is listed only while it is occupied. -/
def PriceLevel.listed (level : PriceLevel) : List PriceLevel :=
  if level.isEmpty then [] else [level]

namespace PriceLevel

variable {level : PriceLevel}

theorem listed_of_empty (empty : level.orders = []) :
    level.listed = [] := by
  simp [listed, isEmpty, empty]

theorem listed_of_occupied (occupied : level.orders ≠ []) :
    level.listed = [level] := by
  simp [listed, isEmpty, occupied]

theorem mem_listed_iff {other : PriceLevel} :
    other ∈ level.listed ↔ other = level ∧ level.orders ≠ [] := by
  by_cases empty : level.orders = []
  · simp [listed_of_empty empty, empty]
  · simp [listed_of_occupied empty, empty]

@[simp]
theorem flatMap_listed :
    level.listed.flatMap PriceLevel.orders = level.orders := by
  by_cases empty : level.orders = []
  · rw [listed_of_empty empty, empty]
    rfl
  · rw [listed_of_occupied empty, List.flatMap_singleton]

end PriceLevel

/-! ## One side -/

/-- What holds of the levels of one side. -/
structure SideShape (instrumentId : String) (side : OrderSide)
    (levels : List PriceLevel) : Prop where
  sorted :
    levels.Pairwise fun near far => side.Better near.price far.price
  occupied : ∀ level ∈ levels, level.orders ≠ []
  ownSide : ∀ level ∈ levels, ∀ order ∈ level.orders, order.side = side
  ownPrice : ∀ level ∈ levels, ∀ order ∈ level.orders,
    order.price = some level.price
  ownInstrument : ∀ level ∈ levels, ∀ order ∈ level.orders,
    order.instrumentId = instrumentId

namespace SideShape

variable {instrumentId : String} {side : OrderSide}

theorem nil : SideShape instrumentId side [] where
  sorted := List.Pairwise.nil
  occupied := by simp
  ownSide := by simp
  ownPrice := by simp
  ownInstrument := by simp

/-- Only the prices and the orders of the levels matter. -/
theorem of_map_eq {levels changed : List PriceLevel}
    (shape : SideShape instrumentId side levels)
    (equal :
      changed.map (fun level => (level.price, level.orders)) =
        levels.map fun level => (level.price, level.orders)) :
    SideShape instrumentId side changed := by
  have related : ∀ level ∈ changed, ∃ original ∈ levels,
      original.price = level.price ∧
        original.orders = level.orders := by
    intro level member
    have image :
        (level.price, level.orders) ∈
          levels.map fun level => (level.price, level.orders) :=
      equal ▸ List.mem_map_of_mem member
    rcases List.mem_map.mp image with ⟨original, originalMember, pairEqual⟩
    exact ⟨original, originalMember, (Prod.mk.inj pairEqual).1,
      (Prod.mk.inj pairEqual).2⟩
  have prices :
      changed.map PriceLevel.price = levels.map PriceLevel.price := by
    have firsts := congrArg (List.map Prod.fst) equal
    simpa [List.map_map, Function.comp_def] using firsts
  constructor
  · have sorted := List.pairwise_map.mpr shape.sorted
    rw [← prices] at sorted
    exact List.pairwise_map.mp sorted
  · intro level member
    rcases related level member with ⟨original, originalMember, _, orders⟩
    exact orders ▸ shape.occupied original originalMember
  · intro level member order orderMember
    rcases related level member with ⟨original, originalMember, _, orders⟩
    exact shape.ownSide original originalMember order
      (orders ▸ orderMember)
  · intro level member order orderMember
    rcases related level member with ⟨original, originalMember, price, orders⟩
    rw [← price]
    exact shape.ownPrice original originalMember order
      (orders ▸ orderMember)
  · intro level member order orderMember
    rcases related level member with ⟨original, originalMember, _, orders⟩
    exact shape.ownInstrument original originalMember order
      (orders ▸ orderMember)

theorem sublist {levels kept : List PriceLevel}
    (shape : SideShape instrumentId side levels)
    (sub : kept.Sublist levels) :
    SideShape instrumentId side kept where
  sorted := shape.sorted.sublist sub
  occupied level member := shape.occupied level (sub.subset member)
  ownSide level member := shape.ownSide level (sub.subset member)
  ownPrice level member := shape.ownPrice level (sub.subset member)
  ownInstrument level member :=
    shape.ownInstrument level (sub.subset member)

/-- Replace one level by a level at the same price. -/
theorem replace
    {front back : List PriceLevel} {level replacement : PriceLevel}
    (shape : SideShape instrumentId side (front ++ level :: back))
    (price : replacement.price = level.price)
    (occupied : replacement.orders ≠ [])
    (ownSide : ∀ order ∈ replacement.orders, order.side = side)
    (ownPrice : ∀ order ∈ replacement.orders,
      order.price = some level.price)
    (ownInstrument : ∀ order ∈ replacement.orders,
      order.instrumentId = instrumentId) :
    SideShape instrumentId side (front ++ replacement :: back) := by
  have elsewhere : ∀ other ∈ front ++ replacement :: back,
      other = replacement ∨ other ∈ front ++ level :: back := by
    intro other member
    rcases List.mem_append.mp member with inFront | inRest
    · exact Or.inr (List.mem_append_left _ inFront)
    · rcases List.mem_cons.mp inRest with equal | inBack
      · exact Or.inl equal
      · exact Or.inr
          (List.mem_append_right _ (List.mem_cons_of_mem _ inBack))
  constructor
  · have sorted := List.pairwise_map.mpr shape.sorted
    have prices :
        (front ++ level :: back).map PriceLevel.price =
          (front ++ replacement :: back).map PriceLevel.price := by
      simp [price]
    rw [prices] at sorted
    exact List.pairwise_map.mp sorted
  · intro other member
    rcases elsewhere other member with rfl | unchanged
    · exact occupied
    · exact shape.occupied other unchanged
  · intro other member
    rcases elsewhere other member with rfl | unchanged
    · exact ownSide
    · exact shape.ownSide other unchanged
  · intro other member
    rcases elsewhere other member with rfl | unchanged
    · rw [price]
      exact ownPrice
    · exact shape.ownPrice other unchanged
  · intro other member
    rcases elsewhere other member with rfl | unchanged
    · exact ownInstrument
    · exact shape.ownInstrument other unchanged

/-- Only levels in use are listed: an emptied level leaves the side. -/
theorem replace_listed
    {front back : List PriceLevel} {level shrunk : PriceLevel}
    (shape : SideShape instrumentId side (front ++ level :: back))
    (price : shrunk.price = level.price)
    (subset : ∀ order ∈ shrunk.orders, order ∈ level.orders) :
    SideShape instrumentId side (front ++ (shrunk.listed ++ back)) := by
  have member : level ∈ front ++ level :: back :=
    List.mem_append_right _ List.mem_cons_self
  by_cases empty : shrunk.orders = []
  · rw [PriceLevel.listed_of_empty empty, List.nil_append]
    exact shape.sublist
      ((List.Sublist.refl front).append (List.sublist_cons_self _ _))
  · rw [PriceLevel.listed_of_occupied empty, List.singleton_append]
    apply shape.replace price empty
    · intro order inShrunk
      exact shape.ownSide level member order (subset order inShrunk)
    · intro order inShrunk
      exact shape.ownPrice level member order (subset order inShrunk)
    · intro order inShrunk
      exact shape.ownInstrument level member order
        (subset order inShrunk)

end SideShape

/-! ## The whole book -/

/-- What holds of a book whatever the quantities of its orders are. -/
structure BookShape (book : OrderBook) : Prop where
  side : ∀ side, SideShape book.instrumentId side (book.levels side)
  distinct : (book.resting.map Order.orderId).Nodup
  ids : ∀ orderId, orderId ∈ book.orderIds ↔
    ∃ order ∈ book.resting, order.orderId = orderId
  prices : ∀ orderId price,
    book.orderPriceMap.get? orderId = some price ↔
      ∃ order ∈ book.resting,
        order.orderId = orderId ∧ order.price = some price
  uncrossed : ∀ bid ∈ book.bids, ∀ ask ∈ book.asks,
    bid.price < ask.price

namespace BookShape

variable {book : OrderBook}

theorem new (instrumentId : String) :
    BookShape (OrderBook.new instrumentId) where
  side side := by
    cases side <;> exact SideShape.nil
  distinct := List.nodup_nil
  ids := by
    intro orderId
    simp [OrderBook.new, OrderBook.resting, OrderBook.restingOn,
      OrderBook.levels]
  prices := by
    intro orderId price
    simp [OrderBook.new, OrderBook.resting, OrderBook.restingOn,
      OrderBook.levels]
  uncrossed := by simp [OrderBook.new]

theorem eq_of_orderId_eq (shape : BookShape book)
    {first second : Order}
    (firstMember : first ∈ book.resting)
    (secondMember : second ∈ book.resting)
    (equal : first.orderId = second.orderId) :
    first = second :=
  List.inj_on_of_nodup_map shape.distinct firstMember secondMember equal

/-- The uncrossed condition, seen from either side. -/
theorem opposite_better (shape : BookShape book) {side : OrderSide}
    {own other : PriceLevel}
    (ownMember : own ∈ book.levels side)
    (otherMember : other ∈ book.levels side.opposite) :
    side.Better other.price own.price := by
  cases side with
  | buy => exact shape.uncrossed own ownMember other otherMember
  | sell => exact shape.uncrossed other otherMember own ownMember

theorem uncrossed_of_opposite_better {side : OrderSide}
    (apart : ∀ own ∈ book.levels side,
      ∀ other ∈ book.levels side.opposite,
        side.Better other.price own.price) :
    ∀ bid ∈ book.bids, ∀ ask ∈ book.asks, bid.price < ask.price := by
  intro bid bidMember ask askMember
  cases side with
  | buy => exact apart bid bidMember ask askMember
  | sell => exact apart ask askMember bid bidMember

theorem contains_orderId (shape : BookShape book) {order : Order}
    (member : order ∈ book.resting) :
    order.orderId ∈ book.orderIds :=
  (shape.ids _).mpr ⟨order, member, rfl⟩

theorem not_mem_resting (shape : BookShape book) {order : Order}
    (absent : order.orderId ∉ book.orderIds) :
    ∀ other ∈ book.resting, other.orderId ≠ order.orderId := by
  intro other member equal
  exact absent (equal ▸ shape.contains_orderId member)

/-- A resting order is priced and indexed under its own price. -/
theorem price_of_resting (shape : BookShape book) {side : OrderSide}
    {level : PriceLevel} {order : Order}
    (levelMember : level ∈ book.levels side)
    (member : order ∈ level.orders) :
    book.orderPriceMap.get? order.orderId = some level.price :=
  (shape.prices _ _).mpr
    ⟨order,
      OrderBook.mem_resting_of_mem
        (OrderBook.mem_restingOn_iff.mpr ⟨level, levelMember, member⟩),
      rfl, (shape.side side).ownPrice level levelMember order member⟩

theorem contains_price (shape : BookShape book) {order : Order}
    (member : order ∈ book.resting) :
    book.orderPriceMap.Contains order.orderId := by
  rcases List.mem_append.mp member with own | other
  · rcases OrderBook.mem_restingOn_iff.mp own with
      ⟨level, levelMember, inLevel⟩
    exact OrderedDict.contains_of_get?
      (shape.price_of_resting levelMember inLevel)
  · rcases OrderBook.mem_restingOn_iff.mp other with
      ⟨level, levelMember, inLevel⟩
    exact OrderedDict.contains_of_get?
      (shape.price_of_resting levelMember inLevel)

end BookShape

/-! ## An order leaves the book -/

/-- The second book is the first without one resting order. -/
structure Removed (side : OrderSide) (order : Order)
    (book changed : OrderBook) : Prop where
  instrument : changed.instrumentId = book.instrumentId
  shape : SideShape book.instrumentId side (changed.levels side)
  other :
    changed.levels side.opposite = book.levels side.opposite
  queue : ∃ before after,
    book.restingOn side = before ++ order :: after ∧
      changed.restingOn side = before ++ after
  prices : ∀ level ∈ changed.levels side,
    ∃ original ∈ book.levels side, original.price = level.price
  ids : changed.orderIds = book.orderIds.erase order.orderId
  map : changed.orderPriceMap = book.orderPriceMap.erase order.orderId

namespace Removed

variable {side : OrderSide} {order : Order} {book changed : OrderBook}

/-- An order is taken out of its level. -/
theorem of_levels
    {before after : List PriceLevel} {level shrunk : PriceLevel}
    {earlier later : List Order}
    (shape : SideShape book.instrumentId side (book.levels side))
    (whole : book.levels side = before ++ level :: after)
    (rest :
      changed.levels side = before ++ (shrunk.listed ++ after))
    (price : shrunk.price = level.price)
    (orders : level.orders = earlier ++ order :: later)
    (kept : shrunk.orders = earlier ++ later)
    (instrument : changed.instrumentId = book.instrumentId)
    (other :
      changed.levels side.opposite = book.levels side.opposite)
    (ids : changed.orderIds = book.orderIds.erase order.orderId)
    (map :
      changed.orderPriceMap =
        book.orderPriceMap.erase order.orderId) :
    Removed side order book changed where
  instrument := instrument
  shape := by
    rw [rest]
    apply SideShape.replace_listed (whole ▸ shape) price
    intro candidate member
    rw [kept] at member
    rw [orders]
    exact (List.mem_append.mp member).elim
      (List.mem_append_left _)
      fun inLater =>
        List.mem_append_right _ (List.mem_cons_of_mem _ inLater)
  other := other
  queue := by
    refine ⟨before.flatMap PriceLevel.orders ++ earlier,
      later ++ after.flatMap PriceLevel.orders, ?_, ?_⟩
    · simp [OrderBook.restingOn, whole, orders]
    · simp [OrderBook.restingOn, rest, kept]
  prices := by
    intro candidate member
    rw [rest] at member
    rw [whole]
    rcases List.mem_append.mp member with inBefore | inRest
    · exact ⟨candidate, List.mem_append_left _ inBefore, rfl⟩
    · rcases List.mem_append.mp inRest with inShrunk | inAfter
      · rcases PriceLevel.mem_listed_iff.mp inShrunk with ⟨rfl, _⟩
        exact ⟨level, List.mem_append_right _ List.mem_cons_self,
          price.symm⟩
      · exact ⟨candidate,
          List.mem_append_right _ (List.mem_cons_of_mem _ inAfter),
          rfl⟩
  ids := ids
  map := map

theorem perm (removed : Removed side order book changed) :
    book.resting.Perm (order :: changed.resting) := by
  rcases removed.queue with ⟨before, after, whole, rest⟩
  have otherEqual :
      changed.restingOn side.opposite = book.restingOn side.opposite :=
    OrderBook.restingOn_congr removed.other
  calc
    book.resting.Perm
        (book.restingOn side ++ book.restingOn side.opposite) :=
      OrderBook.resting_perm
    _ = (before ++ order :: after) ++ book.restingOn side.opposite := by
      rw [whole]
    List.Perm _ (order :: (before ++ after) ++
        book.restingOn side.opposite) :=
      List.perm_middle.append_right _
    _ = order :: (changed.restingOn side ++
        changed.restingOn side.opposite) := by
      rw [rest, otherEqual, List.cons_append]
    List.Perm _ (order :: changed.resting) :=
      OrderBook.resting_perm.symm.cons _

theorem mem_resting_iff (removed : Removed side order book changed)
    {candidate : Order} :
    candidate ∈ book.resting ↔
      candidate = order ∨ candidate ∈ changed.resting := by
  rw [removed.perm.mem_iff, List.mem_cons]

theorem ne_of_mem (removed : Removed side order book changed)
    (shape : BookShape book) {candidate : Order}
    (member : candidate ∈ changed.resting) :
    candidate.orderId ≠ order.orderId := by
  have distinct :
      ((order :: changed.resting).map Order.orderId).Nodup :=
    (removed.perm.map _).nodup_iff.mp shape.distinct
  rw [List.map_cons, List.nodup_cons] at distinct
  intro equal
  exact distinct.1 (equal ▸ List.mem_map_of_mem member)

/-- What rests afterwards is what rested under another id. -/
theorem mem_changed_iff (removed : Removed side order book changed)
    (shape : BookShape book) {candidate : Order} :
    candidate ∈ changed.resting ↔
      candidate ∈ book.resting ∧ candidate.orderId ≠ order.orderId := by
  constructor
  · intro member
    exact ⟨removed.mem_resting_iff.mpr (Or.inr member),
      removed.ne_of_mem shape member⟩
  · rintro ⟨member, different⟩
    rcases removed.mem_resting_iff.mp member with rfl | kept
    · exact absurd rfl different
    · exact kept

/-- Removing an order keeps the shape. -/
theorem keeps (removed : Removed side order book changed)
    (shape : BookShape book) : BookShape changed where
  side := by
    intro which
    rw [removed.instrument]
    by_cases same : which = side
    · rw [same]
      exact removed.shape
    · have opposite : which = side.opposite :=
        OrderSide.eq_opposite_of_ne same
      rw [opposite, removed.other]
      exact shape.side side.opposite
  distinct := by
    have distinct :
        ((order :: changed.resting).map Order.orderId).Nodup :=
      (removed.perm.map _).nodup_iff.mp shape.distinct
    rw [List.map_cons, List.nodup_cons] at distinct
    exact distinct.2
  ids := by
    intro orderId
    rw [removed.ids, Finset.mem_erase, shape.ids]
    constructor
    · rintro ⟨different, candidate, member, rfl⟩
      exact ⟨candidate,
        (removed.mem_changed_iff shape).mpr ⟨member, different⟩, rfl⟩
    · rintro ⟨candidate, member, rfl⟩
      have facts := (removed.mem_changed_iff shape).mp member
      exact ⟨facts.2, candidate, facts.1, rfl⟩
  prices := by
    intro orderId price
    rw [removed.map, OrderedDict.get?_erase]
    by_cases same : orderId = order.orderId
    · rw [if_pos same]
      constructor
      · intro impossible
        simp at impossible
      · rintro ⟨candidate, member, candidateId, _⟩
        exact absurd (candidateId.trans same)
          (removed.ne_of_mem shape member)
    · rw [if_neg same, shape.prices]
      constructor
      · rintro ⟨candidate, member, rfl, priced⟩
        exact ⟨candidate,
          (removed.mem_changed_iff shape).mpr ⟨member, same⟩,
          rfl, priced⟩
      · rintro ⟨candidate, member, candidateId, priced⟩
        exact ⟨candidate,
          ((removed.mem_changed_iff shape).mp member).1,
          candidateId, priced⟩
  uncrossed := by
    apply @BookShape.uncrossed_of_opposite_better _ side
    intro own ownMember other otherMember
    rcases removed.prices own ownMember with ⟨original, originalMember, price⟩
    rw [removed.other] at otherMember
    rw [← price]
    exact shape.opposite_better originalMember otherMember

end Removed

/-! ## An order joins the book -/

/-- The second book is the first with one more resting order. -/
structure Inserted (order : Order) (price : ℚ)
    (book changed : OrderBook) : Prop where
  instrument : changed.instrumentId = book.instrumentId
  shape :
    SideShape book.instrumentId order.side (changed.levels order.side)
  other :
    changed.levels order.side.opposite =
      book.levels order.side.opposite
  queue : ∃ before after,
    book.restingOn order.side = before ++ after ∧
      changed.restingOn order.side = before ++ order :: after
  prices : ∀ level ∈ changed.levels order.side,
    level.price = price ∨
      ∃ original ∈ book.levels order.side,
        original.price = level.price
  ids : changed.orderIds = insert order.orderId book.orderIds
  map :
    changed.orderPriceMap = book.orderPriceMap.set order.orderId price
  priced : order.price = some price

namespace Inserted

variable {order : Order} {price : ℚ} {book changed : OrderBook}

theorem perm (inserted : Inserted order price book changed) :
    changed.resting.Perm (order :: book.resting) := by
  rcases inserted.queue with ⟨before, after, whole, grown⟩
  have otherEqual :
      changed.restingOn order.side.opposite =
        book.restingOn order.side.opposite :=
    OrderBook.restingOn_congr inserted.other
  calc
    changed.resting.Perm
        (changed.restingOn order.side ++
          changed.restingOn order.side.opposite) :=
      OrderBook.resting_perm
    _ = (before ++ order :: after) ++
        book.restingOn order.side.opposite := by
      rw [grown, otherEqual]
    List.Perm _ (order :: (before ++ after) ++
        book.restingOn order.side.opposite) :=
      List.perm_middle.append_right _
    _ = order :: (book.restingOn order.side ++
        book.restingOn order.side.opposite) := by
      rw [whole, List.cons_append]
    List.Perm _ (order :: book.resting) :=
      OrderBook.resting_perm.symm.cons _

theorem mem_changed_iff (inserted : Inserted order price book changed)
    {candidate : Order} :
    candidate ∈ changed.resting ↔
      candidate = order ∨ candidate ∈ book.resting := by
  rw [inserted.perm.mem_iff, List.mem_cons]

/-- Inserting a new order at an uncrossed price keeps the shape. -/
theorem keeps (inserted : Inserted order price book changed)
    (shape : BookShape book)
    (absent : order.orderId ∉ book.orderIds)
    (apart : ∀ level ∈ book.levels order.side.opposite,
      order.side.Better level.price price) :
    BookShape changed where
  side := by
    intro which
    rw [inserted.instrument]
    by_cases same : which = order.side
    · rw [same]
      exact inserted.shape
    · have opposite : which = order.side.opposite :=
        OrderSide.eq_opposite_of_ne same
      rw [opposite, inserted.other]
      exact shape.side order.side.opposite
  distinct := by
    refine (inserted.perm.map _).nodup_iff.mpr ?_
    rw [List.map_cons, List.nodup_cons]
    refine ⟨?_, shape.distinct⟩
    intro member
    rcases List.mem_map.mp member with ⟨other, otherMember, equal⟩
    exact shape.not_mem_resting absent other otherMember equal
  ids := by
    intro orderId
    rw [inserted.ids, Finset.mem_insert, shape.ids]
    constructor
    · rintro (rfl | ⟨candidate, member, rfl⟩)
      · exact ⟨order, inserted.mem_changed_iff.mpr (Or.inl rfl), rfl⟩
      · exact ⟨candidate,
          inserted.mem_changed_iff.mpr (Or.inr member), rfl⟩
    · rintro ⟨candidate, member, rfl⟩
      rcases inserted.mem_changed_iff.mp member with rfl | old
      · exact Or.inl rfl
      · exact Or.inr ⟨candidate, old, rfl⟩
  prices := by
    intro orderId stored
    rw [inserted.map, OrderedDict.get?_set]
    by_cases same : orderId = order.orderId
    · rw [if_pos same]
      constructor
      · intro equal
        exact ⟨order, inserted.mem_changed_iff.mpr (Or.inl rfl),
          same.symm, equal ▸ inserted.priced⟩
      · rintro ⟨candidate, member, candidateId, priced⟩
        rcases inserted.mem_changed_iff.mp member with rfl | old
        · exact inserted.priced.symm.trans priced
        · exact absurd (candidateId.trans same)
            (shape.not_mem_resting absent candidate old)
    · rw [if_neg same, shape.prices]
      constructor
      · rintro ⟨candidate, member, candidateId, priced⟩
        exact ⟨candidate,
          inserted.mem_changed_iff.mpr (Or.inr member),
          candidateId, priced⟩
      · rintro ⟨candidate, member, candidateId, priced⟩
        rcases inserted.mem_changed_iff.mp member with rfl | old
        · exact absurd candidateId.symm same
        · exact ⟨candidate, old, candidateId, priced⟩
  uncrossed := by
    apply @BookShape.uncrossed_of_opposite_better _ order.side
    intro own ownMember other otherMember
    rw [inserted.other] at otherMember
    rcases inserted.prices own ownMember with equal | original
    · rw [equal]
      exact apart other otherMember
    · rcases original with ⟨level, levelMember, equal⟩
      rw [← equal]
      exact shape.opposite_better levelMember otherMember

end Inserted

end InternTradingGame
