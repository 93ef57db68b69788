import Mathlib.Data.Fintype.EquivFin
import InternTradingGame.Exchange.Renaming
import InternTradingGame.Exchange.VenueProjection

/-!
# The identity of orders in a venue

An id which the venue has forgotten may be submitted again, so an id does not
stand for one order over a whole run.  It does at any moment: every run is
shadowed by one in which no id is taken twice.  When the run reuses an id,
the shadow first renames the order which had it.
-/

namespace InternTradingGame

open Effects

/-! ## Runs in which ids are reused -/

/-- One call, with whole quantities and any ids. -/
abbrev AnyIdStep : ExchangeVenue → VenueCall → ExchangeVenue → Prop :=
  GuardedStep (fun call _ => call.WholeQuantity) VenueCall.execute

/-- The view which shows all orders and none of the history. -/
def View.everything : View where
  inside _ := true
  mine := Set.univ
  seen _ := false
  seen_inside := by
    intro trade isSeen
    cases isSeen

/-- The venue looks like one in which no id has been taken twice. -/
def Shadowed (venue : ExchangeVenue) : Prop :=
  ∃ clean, VenueSound clean ∧
    ExchangeVenue.Shows View.everything clean venue

section Shadow

variable {clean venue : ExchangeVenue}

theorem shows_refl (sound : VenueSound venue) :
    ExchangeVenue.Shows View.everything venue venue where
  market :=
    { heap :=
        { remaining := fun _ _ => rfl
          trades := rfl }
      keys := rfl
      books := fun _ _ => rfl
      named := sound.shape.market.named
      within := by
        intro instrumentId book _ found side level member order inLevel
        have resting : order ∈ book.resting :=
          OrderBook.mem_resting_of_mem
            (OrderBook.mem_restingOn_iff.mpr ⟨level, member, inLevel⟩)
        exact ⟨sound.known order (Or.inl ⟨_, book, found, resting⟩),
          trivial⟩
      outside := by
        intro instrumentId book outside
        cases outside
      bare := by
        intro instrumentId book outside
        cases outside }
  instruments := rfl
  known := fun _ _ => Iff.rfl
  phase := rfl
  last := rfl
  pending :=
    (venue.pendingOrders.keepKeys_of_forall fun _ => rfl).symm
  covers := by
    intro collected member order inCollected
    have stored : venue.pendingOrders.get? collected.1 =
        some collected.2 :=
      (venue.pendingOrders.get?_eq_some_iff _ _).mpr member
    refine ⟨(sound.shape.pending _ _ stored order inCollected).1, ?_⟩
    exact ⟨sound.known order (Or.inr ⟨_, _, stored, inCollected⟩),
      trivial⟩

/-- The renamed shadow looks the same. -/
theorem shows_rename {old new : String}
    (shows : ExchangeVenue.Shows View.everything clean venue)
    (renames : Renames old new clean) :
    ExchangeVenue.Shows View.everything (clean.rename old new) venue := by
  have unseen : Heap.Alike (View.everything.ids clean.allOrderIds)
      View.everything.seen (clean.rename old new).market.heap
      clean.market.heap := by
    constructor
    · rintro orderId ⟨known, _⟩
      apply Heap.remainingQuantity_rename
      rintro rfl
      exact renames.unknown known
    · simp [View.everything]
  exact
    { shows with
      market :=
        { shows.market with heap := unseen.trans shows.market.heap } }

/-- The venue knows the same ids as its shadow. -/
theorem allOrderIds_eq
    (shows : ExchangeVenue.Shows View.everything clean venue) :
    clean.allOrderIds = venue.allOrderIds := by
  ext orderId
  exact shows.known orderId trivial

/-- The shadow can be chosen so that the next call takes no id twice. -/
theorem Shadowed.allowing (shadowed : Shadowed venue) (call : VenueCall) :
    ∃ clean, VenueSound clean ∧
      ExchangeVenue.Shows View.everything clean venue ∧
      call.Allowed clean := by
  rcases shadowed with ⟨clean, sound, shows⟩
  by_cases allowed : call.Allowed clean
  · exact ⟨clean, sound, shows, allowed⟩
  · cases call with
    | submitOrder order =>
        have forgotten : order.orderId ∉ clean.allOrderIds :=
          fun known => allowed fun _ _ _ => known
        rcases Infinite.exists_notMem_finset
          (insert order.orderId
            (clean.allOrderIds ∪
              (clean.market.heap.orders.map Order.orderId).toFinset)) with
          ⟨new, fresh⟩
        have apart : order.orderId ≠ new ∧ new ∉ clean.allOrderIds ∧
            new ∉ clean.market.heap.orders.map Order.orderId := by
          simp only [Finset.mem_insert, Finset.mem_union,
            List.mem_toFinset, not_or] at fresh
          exact ⟨Ne.symm fresh.1, fresh.2.1, fresh.2.2⟩
        have renames : Renames order.orderId new clean :=
          ⟨forgotten, apart.2.1, fun other taken equal =>
            apart.2.2 (List.mem_map.mpr ⟨other, taken, equal⟩)⟩
        refine ⟨clean.rename order.orderId new, renames.sound sound,
          shows_rename shows renames, ?_⟩
        intro taken member equal
        exact absurd equal (rename_free apart.1 taken member)
    | listInstrument instrument => exact absurd trivial allowed
    | cancelOrder orderId traderId => exact absurd trivial allowed
    | executeBatch draw => exact absurd trivial allowed
    | executeOpeningAuction draw => exact absurd trivial allowed
    | cancelAllOrders => exact absurd trivial allowed
    | checkPhaseTransitions observed draw => exact absurd trivial allowed

/-- Every call is a view on everything. -/
theorem inView_everything (call : VenueCall) :
    call.InView View.everything := by
  cases call with
  | submitOrder order => exact ⟨rfl, trivial⟩
  | _ => trivial

theorem Shadowed.step (shadowed : Shadowed venue) {call : VenueCall}
    {next : ExchangeVenue} (step : AnyIdStep venue call next) :
    Shadowed next := by
  rcases step with ⟨whole, rfl⟩
  rcases shadowed.allowing call with ⟨clean, sound, shows, allowed⟩
  have after := venueStep_sound sound whole ⟨allowed, rfl⟩
  refine ⟨call.execute clean, after, ?_⟩
  exact ExchangeVenue.Projects.execute_both shows sound after
    (fun _ _ _ => trivial) (inView_everything call)

/-- Every run is shadowed. -/
theorem Shadowed.of_run {cached baseline : PhaseState}
    {calls : List VenueCall}
    (run :
      Run AnyIdStep (ExchangeVenue.new cached baseline) calls venue) :
    Shadowed venue :=
  run.invariant Shadowed
    ⟨_, VenueSound.new cached baseline,
      shows_refl (VenueSound.new cached baseline)⟩
    fun _ _ _ shadowed step => shadowed.step step

end Shadow

/-! ## What the ids promise -/

/-- The ids resting in the books, then those the batch engine holds. -/
def ExchangeVenue.storedIds (venue : ExchangeVenue) : List String :=
  (venue.market.orderBooks.entries.flatMap fun entry =>
    entry.2.resting.map Order.orderId) ++
  (ordersOf venue.pendingOrders.entries).map Order.orderId

/-- Every stored order has an id and a place of its own. -/
structure OwnPlaces (venue : ExchangeVenue) : Prop where
  distinct : venue.storedIds.Nodup
  resting : ∀ instrumentId book,
    venue.market.orderBooks.get? instrumentId = some book →
      ∀ order ∈ book.resting, order.instrumentId = instrumentId
  pending : ∀ instrumentId orders,
    venue.pendingOrders.get? instrumentId = some orders →
      ∀ order ∈ orders, order.instrumentId = instrumentId
  known : ∀ orderId ∈ venue.storedIds, orderId ∈ venue.allOrderIds

/-- What the venue itself objects to before it takes an order in. -/
inductive Objects (venue : ExchangeVenue) (order : Order) :
    PyError → Prop where
  | notFound
      (unlisted :
        ¬ venue.market.orderBooks.Contains order.instrumentId) :
      Objects venue order
        (.valueError ("Instrument " ++ order.instrumentId ++ " not found"))
  | alreadyExists (known : order.orderId ∈ venue.allOrderIds) :
      Objects venue order
        (.valueError ("Order ID " ++ order.orderId ++ " already exists"))

/--
The ids tell all stored orders apart.  The books accept what the venue hands
them: a submission raises only for the venue's own objections, and before
anything is changed, and batches and phase transitions never raise.
-/
structure OrderIdentity (venue : ExchangeVenue) : Prop where
  places : OwnPlaces venue
  submits : ∀ order exception next, Whole order.quantity →
    ExchangeVenue.submitOrder order venue = .error exception next →
      Objects venue order exception ∧ next = venue
  batches : ∀ draw, ∃ results next,
    ExchangeVenue.executeBatch draw venue = .ok results next
  auctions : ∀ draw, ∃ next,
    ExchangeVenue.executeOpeningAuction draw venue = .ok ⟨⟩ next
  transitions : ∀ observed draw, ∃ next,
    ExchangeVenue.checkPhaseTransitions observed draw venue =
      .ok ⟨⟩ next

section Identity

variable {clean venue : ExchangeVenue}

/-- The ids resting in the books of a sound venue are distinct. -/
theorem VenueSound.restingIds_nodup (sound : VenueSound venue) :
    (venue.market.orderBooks.entries.flatMap fun entry =>
      entry.2.resting.map Order.orderId).Nodup := by
  have stored : ∀ entry ∈ venue.market.orderBooks.entries,
      venue.market.orderBooks.get? entry.1 = some entry.2 :=
    fun entry member =>
      (venue.market.orderBooks.get?_eq_some_iff _ _).mpr member
  rw [List.nodup_flatMap]
  constructor
  · intro entry member
    exact (sound.shape.market.books _ _ (stored entry member)).distinct
  · have keys := List.pairwise_map.mp
      venue.market.orderBooks.distinctKeys
    refine List.Pairwise.imp_of_mem ?_ keys
    intro first second firstMember secondMember different orderId
      inFirst inSecond
    rcases List.mem_map.mp inFirst with ⟨one, oneRests, rfl⟩
    rcases List.mem_map.mp inSecond with ⟨other, otherRests, equal⟩
    have firstStored := stored first firstMember
    have secondStored := stored second secondMember
    have same : other = one :=
      sound.shape.market.eq_of_orderId_eq
        (sound.shape.market.registered other
          ⟨_, _, secondStored, otherRests⟩)
        (sound.shape.market.registered one ⟨_, _, firstStored, oneRests⟩)
        equal
    apply different
    rw [← sound.shape.market.instrument_of_rests firstStored oneRests,
      ← sound.shape.market.instrument_of_rests secondStored otherRests,
      same]

/-- The ids which the batch engine of a sound venue holds are distinct. -/
theorem VenueSound.pendingIds_nodup (sound : VenueSound venue) :
    ((ordersOf venue.pendingOrders.entries).map Order.orderId).Nodup := by
  refine sound.batch.distinct.map_on ?_
  intro first firstMember second secondMember equal
  exact sound.shape.market.eq_of_orderId_eq
    (sound.batch.waiting first firstMember).taken
    (sound.batch.waiting second secondMember).taken equal

theorem VenueSound.ownPlaces (sound : VenueSound venue) :
    OwnPlaces venue := by
  have rests : ∀ orderId,
      (orderId ∈ venue.market.orderBooks.entries.flatMap fun entry =>
        entry.2.resting.map Order.orderId) →
      ∃ order, venue.market.Rests order ∧ order.orderId = orderId := by
    intro orderId member
    rcases List.mem_flatMap.mp member with ⟨entry, entryMember, inEntry⟩
    rcases List.mem_map.mp inEntry with ⟨order, resting, equal⟩
    exact ⟨order, ⟨entry.1, entry.2,
      (venue.market.orderBooks.get?_eq_some_iff _ _).mpr entryMember,
      resting⟩, equal⟩
  have waits : ∀ orderId,
      orderId ∈ (ordersOf venue.pendingOrders.entries).map
        Order.orderId →
      ∃ order, venue.Pending order ∧ order.orderId = orderId := by
    intro orderId member
    rcases List.mem_map.mp member with ⟨order, inOrders, equal⟩
    rcases List.mem_flatMap.mp inOrders with ⟨entry, entryMember, inEntry⟩
    exact ⟨order, ⟨entry.1, entry.2,
      (venue.pendingOrders.get?_eq_some_iff _ _).mpr entryMember,
      inEntry⟩, equal⟩
  constructor
  · refine List.nodup_append.mpr
      ⟨sound.restingIds_nodup, sound.pendingIds_nodup, ?_⟩
    intro first inBooks second inPending equal
    rcases rests first inBooks with ⟨order, resting, rfl⟩
    rcases waits second inPending with ⟨other, pending, rfl⟩
    exact sound.apart resting pending equal.symm
  · intro instrumentId book found order member
    exact sound.shape.market.instrument_of_rests found member
  · intro instrumentId orders found order member
    exact (sound.shape.pending _ _ found order member).1
  · intro orderId member
    rcases List.mem_append.mp member with inBooks | inPending
    · rcases rests orderId inBooks with ⟨order, resting, rfl⟩
      exact sound.known order (Or.inl resting)
    · rcases waits orderId inPending with ⟨order, pending, rfl⟩
      exact sound.known order (Or.inr pending)

/-- The venue holds the same books as its shadow. -/
theorem orderBooks_eq
    (shows : ExchangeVenue.Shows View.everything clean venue) :
    clean.market.orderBooks = venue.market.orderBooks :=
  OrderedDict.ext_get? shows.market.keys
    fun instrumentId => shows.market.books instrumentId rfl

/-- The batch engine holds the same orders as its shadow. -/
theorem pendingOrders_eq
    (shows : ExchangeVenue.Shows View.everything clean venue) :
    clean.pendingOrders = venue.pendingOrders :=
  ((clean.pendingOrders.keepKeys_of_forall fun _ => rfl).symm.trans
    shows.pending.symm)

theorem Shadowed.ownPlaces (shadowed : Shadowed venue) :
    OwnPlaces venue := by
  rcases shadowed with ⟨clean, sound, shows⟩
  have places := sound.ownPlaces
  have books := orderBooks_eq shows
  have pending := pendingOrders_eq shows
  have known := allOrderIds_eq shows
  have stored : clean.storedIds = venue.storedIds := by
    rw [ExchangeVenue.storedIds, ExchangeVenue.storedIds, books, pending]
  constructor
  · exact stored ▸ places.distinct
  · exact books ▸ places.resting
  · exact pending ▸ places.pending
  · exact stored ▸ known ▸ places.known

/-- A submission raises only for the objections of the venue itself. -/
theorem Shadowed.submits (shadowed : Shadowed venue) {order : Order}
    (whole : Whole order.quantity) {exception : PyError}
    {next : ExchangeVenue}
    (raises :
      ExchangeVenue.submitOrder order venue = .error exception next) :
    Objects venue order exception ∧ next = venue := by
  rcases shadowed.allowing (.submitOrder order) with
    ⟨clean, sound, shows, allowed⟩
  by_cases phase : venue.currentPhaseState.isOrderSubmissionAllowed
  · by_cases listed :
        venue.market.orderBooks.Contains order.instrumentId
    · by_cases known : order.orderId ∈ venue.allOrderIds
      · rw [ExchangeVenue.submitOrder, bind_apply, get_apply] at raises
        simp only [phase, listed, known, Bool.not_true,
          Bool.false_eq_true, not_true, if_true, if_false] at raises
        cases raises
        exact ⟨.alreadyExists known, rfl⟩
      · have unknown : order.orderId ∉ clean.allOrderIds := by
          rw [allOrderIds_eq shows]
          exact known
        have takes : Takes clean order :=
          { allowed := shows.phase ▸ phase
            listed := (shows.contains_iff _).mpr listed
            unknown := unknown
            fresh := fun taken member equal =>
              unknown (allowed taken member equal) }
        rcases takes.answered sound whole with ⟨result, reached, answers⟩
        rcases (ExchangeVenue.Projects.submitOrder_both shows rfl
            trivial).elim_ok answers with
          ⟨other, otherAnswers, _⟩
        rw [otherAnswers] at raises
        cases raises
    · rw [ExchangeVenue.submitOrder, bind_apply, get_apply] at raises
      simp only [phase, listed, Bool.not_true, Bool.false_eq_true,
        not_false_iff, if_true, if_false] at raises
      cases raises
      exact ⟨.notFound listed, rfl⟩
  · rw [ExchangeVenue.submitOrder, bind_apply, get_apply] at raises
    simp only [phase, Bool.not_false, if_true] at raises
    cases raises

theorem Shadowed.identity (shadowed : Shadowed venue) :
    OrderIdentity venue := by
  rcases id shadowed with ⟨clean, sound, shows⟩
  have sub := View.everything.ids_subset clean.allOrderIds
  constructor
  · exact shadowed.ownPlaces
  · intro order exception next whole raises
    exact shadowed.submits whole raises
  · intro draw
    cases ran : ExchangeVenue.executeBatch draw clean with
    | error raised reached =>
        exact ((executeBatch_sound sound draw).elim_error ran).elim
    | ok results reached =>
        rcases shows.executeBatch_follows sub ran with
          ⟨others, other, otherRan, _⟩
        exact ⟨others, other, otherRan⟩
  · intro draw
    cases ran : ExchangeVenue.executeOpeningAuction draw clean with
    | error raised reached =>
        exact
          ((executeOpeningAuction_sound sound draw).elim_error ran).elim
    | ok value reached =>
        rcases shows.executeOpeningAuction_follows sub ran with
          ⟨other, otherRan, _⟩
        exact ⟨other, otherRan⟩
  · intro observed draw
    cases ran :
        ExchangeVenue.checkPhaseTransitions observed draw clean with
    | error raised reached =>
        exact ((checkPhaseTransitions_sound sound observed
          draw).elim_error ran).elim
    | ok value reached =>
        rcases shows.checkPhaseTransitions_follows sub observed ran with
          ⟨other, otherRan, _⟩
        exact ⟨other, otherRan⟩

end Identity

/--
In every run of whole quantities, in which ids may be reused, the ids tell
all stored orders apart.
-/
theorem orderIdentity {cached baseline : PhaseState}
    {calls : List VenueCall} {venue : ExchangeVenue}
    (run :
      Run AnyIdStep (ExchangeVenue.new cached baseline) calls venue) :
    OrderIdentity venue :=
  (Shadowed.of_run run).identity

/-- An order is cancelled, and its id is used again and matched. -/
def Sample.reusedId : List VenueCall :=
  [ .listInstrument { symbol := "CALL" },
    .checkPhaseTransitions (PhaseState.default .continuous) fun _ => 0,
    .submitOrder sellTen,
    .cancelOrder "SELL" "MAKER",
    .submitOrder sellTen,
    .submitOrder buyFour ]

theorem orderIdentity_reusedId :
    (replay VenueCall.execute
      (ExchangeVenue.new (PhaseState.default .closed)
        (PhaseState.default .closed))
      Sample.reusedId).storedIds = ["SELL"] ∧
    OrderIdentity
      (replay VenueCall.execute
        (ExchangeVenue.new (PhaseState.default .closed)
          (PhaseState.default .closed))
        Sample.reusedId) :=
  ⟨by decide +kernel, orderIdentity (run_replay (by decide +kernel))⟩

end InternTradingGame
