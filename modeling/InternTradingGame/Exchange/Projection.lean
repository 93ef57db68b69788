import InternTradingGame.Exchange.Locality
import InternTradingGame.Exchange.VenueSound

/-!
# What a venue shows of some instruments

A view chooses some instruments and the ids of their orders.  One venue
projects to another under a view when the second one shows the same of the
chosen instruments and holds no order of the others.  Every operation keeps
this up: an operation on a chosen instrument runs on both sides in lockstep,
and one on another instrument, or the part of a batch which belongs to one,
runs on the first side alone and is not seen.
-/

namespace InternTradingGame

open Effects

/-- The instruments, orders and trades which are looked at. -/
structure View where
  inside : String → Bool
  mine : Set String
  seen : Trade → Bool
  seen_inside : ∀ trade, seen trade = true →
    inside trade.instrumentId = true

/-! ## Markets -/

/-- The second market is what the first one shows under a view. -/
structure Market.Projects (view : View) (ids : Set String)
    (left right : Market) : Prop where
  heap : Heap.Alike ids view.seen left.heap right.heap
  keys : left.orderBooks.keys = right.orderBooks.keys
  books : ∀ instrumentId, view.inside instrumentId = true →
    left.orderBooks.get? instrumentId =
      right.orderBooks.get? instrumentId
  named : ∀ instrumentId book,
    left.orderBooks.get? instrumentId = some book →
      book.instrumentId = instrumentId
  within : ∀ instrumentId book, view.inside instrumentId = true →
    left.orderBooks.get? instrumentId = some book → book.Within ids
  outside : ∀ instrumentId book, view.inside instrumentId = false →
    left.orderBooks.get? instrumentId = some book →
      book.Within view.mineᶜ
  bare : ∀ instrumentId book, view.inside instrumentId = false →
    right.orderBooks.get? instrumentId = some book → book.Within ∅

namespace Market.Projects

variable {view : View} {ids : Set String} {left right : Market}
  {changed other : Market} {instrumentId : String}

/-- The scope of work on a chosen instrument, on both sides. -/
def both (view : View) (ids : Set String) (instrumentId : String)
    {σ : Type} (left right : σ) : Scope σ where
  ids := ids
  seen := view.seen
  instrumentId := instrumentId
  first := left
  second := right

/-- The scope of work on another instrument, on the first side. -/
def alone (view : View) (instrumentId : String) {σ : Type} (left : σ) :
    Scope σ where
  ids := view.mineᶜ
  seen := view.seen
  instrumentId := instrumentId
  first := left
  second := left

theorem ne_of_inside (inside : view.inside instrumentId = true)
    {third : String} (outside : view.inside third = false) :
    third ≠ instrumentId := by
  rintro rfl
  rw [inside] at outside
  cases outside

/-- The heaps have changed alike, perhaps at more orders. -/
theorem setHeap (projects : Market.Projects view ids left right)
    {wider : Set String} (sub : ids ⊆ wider) {heap otherHeap : Heap}
    (heaps : Heap.Alike wider view.seen heap otherHeap) :
    Market.Projects view wider { left with heap := heap }
      { right with heap := otherHeap } where
  heap := heaps
  keys := projects.keys
  books := projects.books
  named := projects.named
  within instrumentId book inside found :=
    (projects.within instrumentId book inside found).mono sub
  outside := projects.outside
  bare := projects.bare

/-- Work on a chosen instrument starts alike. -/
theorem start_both (projects : Market.Projects view ids left right)
    (inside : view.inside instrumentId = true) :
    Market.Alike (both view ids instrumentId left right) left right where
  heap := projects.heap
  first := Market.Touched.refl left
  second := Market.Touched.refl right
  book := projects.books instrumentId inside
  within book found :=
    ⟨projects.named instrumentId book found,
      projects.within instrumentId book inside found⟩

/-- Work on a chosen instrument ends in a projection. -/
theorem end_both (projects : Market.Projects view ids left right)
    (inside : view.inside instrumentId = true)
    (alike :
      Market.Alike (both view ids instrumentId left right) changed other) :
    Market.Projects view ids changed other where
  heap := alike.heap
  keys := alike.first.keys.trans
    (projects.keys.trans alike.second.keys.symm)
  books := by
    intro third thirdInside
    by_cases same : third = instrumentId
    · rw [same]
      exact alike.book
    · exact (alike.first.books third same).trans
        ((projects.books third thirdInside).trans
          (alike.second.books third same).symm)
  named := by
    intro third book found
    by_cases same : third = instrumentId
    · rw [same] at found ⊢
      exact (alike.within book found).1
    · rw [alike.first.books third same] at found
      exact projects.named third book found
  within := by
    intro third book thirdInside found
    by_cases same : third = instrumentId
    · rw [same] at found
      exact (alike.within book found).2
    · rw [alike.first.books third same] at found
      exact projects.within third book thirdInside found
  outside := by
    intro third book outside found
    rw [alike.first.books third (ne_of_inside inside outside)] at found
    exact projects.outside third book outside found
  bare := by
    intro third book outside found
    rw [alike.second.books third (ne_of_inside inside outside)] at found
    exact projects.bare third book outside found

/-- Work on another instrument, compared with itself. -/
theorem start_alone (projects : Market.Projects view ids left right)
    (outside : view.inside instrumentId = false) :
    Market.Alike (alone view instrumentId left) left left where
  heap := Heap.Alike.refl left.heap
  first := Market.Touched.refl left
  second := Market.Touched.refl left
  book := rfl
  within book found :=
    ⟨projects.named instrumentId book found,
      projects.outside instrumentId book outside found⟩

/-- Work on another instrument is not seen. -/
theorem end_alone (projects : Market.Projects view ids left right)
    (sub : ids ⊆ view.mine) (outside : view.inside instrumentId = false)
    (alike : Market.Alike (alone view instrumentId left) changed other) :
    Market.Projects view ids changed right := by
  have apart : ∀ third, view.inside third = true →
      third ≠ instrumentId :=
    fun third inside => (ne_of_inside inside outside).symm
  have unseen : Heap.Alike ids view.seen left.heap changed.heap := by
    apply alike.first.heap.alike
    · exact fun orderId known => not_not.mpr (sub known)
    · intro trade isSeen equal
      exact apart _ (view.seen_inside trade isSeen) equal
  constructor
  · exact unseen.symm.trans projects.heap
  · exact alike.first.keys.trans projects.keys
  · intro third inside
    rw [alike.first.books third (apart third inside)]
    exact projects.books third inside
  · intro third book found
    by_cases same : third = instrumentId
    · rw [same] at found ⊢
      exact (alike.within book found).1
    · rw [alike.first.books third same] at found
      exact projects.named third book found
  · intro third book inside found
    rw [alike.first.books third (apart third inside)] at found
    exact projects.within third book inside found
  · intro third book thirdOutside found
    by_cases same : third = instrumentId
    · rw [same] at found
      exact (alike.within book found).2
    · rw [alike.first.books third same] at found
      exact projects.outside third book thirdOutside found
  · exact projects.bare

/-- A local program on the book of a chosen instrument. -/
theorem onBook_both {α : Type} {program : BookM α}
    (projects : Market.Projects view ids left right)
    (inside : view.inside instrumentId = true)
    (isLocal : OrderBook.Local ids program) :
    Lockstep (Market.Projects view ids)
      (Market.onBook instrumentId program)
      (Market.onBook instrumentId program) left right :=
  (@onBook_alike (both view ids instrumentId left right) left right α
    program isLocal (projects.start_both inside)).mono
    fun _ _ alike => projects.end_both inside alike

/-- The continuous engine on a chosen instrument. -/
theorem continuous_both {order : Order}
    (projects : Market.Projects view ids left right)
    (inside : view.inside order.instrumentId = true)
    (known : order.orderId ∈ ids) :
    Lockstep (Market.Projects view ids)
      (ContinuousMatchingEngine.submitOrder order)
      (ContinuousMatchingEngine.submitOrder order) left right :=
  (@continuous_submitOrder_alike
    (both view ids order.instrumentId left right) left right order rfl
    known (projects.start_both inside)).mono
    fun _ _ alike => projects.end_both inside alike

/-- The continuous engine on another instrument. -/
theorem continuous_alone {order : Order}
    (projects : Market.Projects view ids left right)
    (sub : ids ⊆ view.mine)
    (outside : view.inside order.instrumentId = false)
    (other : order.orderId ∈ view.mineᶜ) :
    Market.Projects view ids
      (finalState (ContinuousMatchingEngine.submitOrder order left))
      right := by
  have lockstep := @continuous_submitOrder_alike
    (alone view order.instrumentId left) left left order rfl other
    (projects.start_alone outside)
  exact projects.end_alone sub outside lockstep.finalState

/-- A local program on the book of another instrument. -/
theorem onBook_alone {α : Type} {program : BookM α}
    (projects : Market.Projects view ids left right)
    (sub : ids ⊆ view.mine) (outside : view.inside instrumentId = false)
    (isLocal : OrderBook.Local view.mineᶜ program) :
    Market.Projects view ids
      (finalState (Market.onBook instrumentId program left)) right := by
  have lockstep := @onBook_alike (alone view instrumentId left) left left
    α program isLocal (projects.start_alone outside)
  exact projects.end_alone sub outside lockstep.finalState

end Market.Projects

/-! ## Batches -/

/-- The second batch is what the first one shows under a view. -/
structure BatchContext.Projects (view : View) (ids : Set String)
    (left right : BatchContext) : Prop where
  market : Market.Projects view ids left.market right.market
  results : ∀ instrumentId, view.inside instrumentId = true →
    left.results.get? instrumentId = right.results.get? instrumentId

/-- The collected orders of an instrument are those of the view or not. -/
def View.Covers (view : View) (ids : Set String)
    (collected : String × List Order) : Prop :=
  ∀ order ∈ collected.2, order.instrumentId = collected.1 ∧
    if view.inside collected.1 then order.orderId ∈ ids
    else order.orderId ∈ view.mineᶜ

theorem View.Covers.mono {view : View} {ids wider : Set String}
    {collected : String × List Order} (covers : view.Covers ids collected)
    (sub : ids ⊆ wider) : view.Covers wider collected := by
  intro order member
  have facts := covers order member
  refine ⟨facts.1, ?_⟩
  cases inside : view.inside collected.1 with
  | true =>
      rw [if_pos inside] at facts
      exact sub facts.2
  | false =>
      rw [inside] at facts
      exact facts.2

namespace BatchContext.Projects

variable {view : View} {ids : Set String} {left right : BatchContext}
  {changed other : BatchContext} {instrumentId : String}

open Market.Projects (both alone ne_of_inside)

theorem start_both (projects : BatchContext.Projects view ids left right)
    (inside : view.inside instrumentId = true) :
    BatchContext.Alike (both view ids instrumentId left right) left
      right where
  market := projects.market.start_both inside
  results := projects.results instrumentId inside
  first _ _ := rfl
  second _ _ := rfl

theorem end_both (projects : BatchContext.Projects view ids left right)
    (inside : view.inside instrumentId = true)
    (alike : BatchContext.Alike (both view ids instrumentId left right)
      changed other) :
    BatchContext.Projects view ids changed other where
  market := projects.market.end_both inside alike.market
  results := by
    intro third thirdInside
    by_cases same : third = instrumentId
    · rw [same]
      exact alike.results
    · exact (alike.first third same).trans
        ((projects.results third thirdInside).trans
          (alike.second third same).symm)

theorem start_alone (projects : BatchContext.Projects view ids left right)
    (outside : view.inside instrumentId = false) :
    BatchContext.Alike (alone view instrumentId left) left left where
  market := projects.market.start_alone outside
  results := rfl
  first _ _ := rfl
  second _ _ := rfl

theorem end_alone (projects : BatchContext.Projects view ids left right)
    (sub : ids ⊆ view.mine) (outside : view.inside instrumentId = false)
    (alike : BatchContext.Alike (alone view instrumentId left) changed
      other) :
    BatchContext.Projects view ids changed right where
  market := projects.market.end_alone sub outside alike.market
  results := by
    intro third inside
    rw [alike.first third (ne_of_inside inside outside).symm]
    exact projects.results third inside

/-- One instrument of a batch, chosen or not. -/
theorem matchInstrument_both (draw : String → ℚ)
    {collected : String × List Order}
    (projects : BatchContext.Projects view ids left right)
    (covers : view.Covers ids collected)
    (inside : view.inside collected.1 = true) :
    Lockstep (BatchContext.Projects view ids)
      (BatchMatchingEngine.matchInstrument draw collected)
      (BatchMatchingEngine.matchInstrument draw collected) left right := by
  have mine : (both view ids collected.1 left right).Covers collected.2 := by
    intro order member
    have facts := covers order member
    rw [if_pos inside] at facts
    exact ⟨facts.2, facts.1⟩
  exact (matchInstrument_alike draw mine
    (projects.start_both inside)).mono
    fun _ _ alike => projects.end_both inside alike

theorem matchInstrument_alone (draw : String → ℚ)
    {collected : String × List Order} (sub : ids ⊆ view.mine)
    (projects : BatchContext.Projects view ids left right)
    (covers : view.Covers ids collected)
    (outside : view.inside collected.1 = false) :
    BatchContext.Projects view ids
      (finalState (BatchMatchingEngine.matchInstrument draw collected left))
      right := by
  have others : (alone view collected.1 left).Covers collected.2 := by
    intro order member
    have facts := covers order member
    rw [outside] at facts
    exact ⟨facts.2, facts.1⟩
  have lockstep := matchInstrument_alike draw others
    (projects.start_alone outside)
  exact projects.end_alone sub outside lockstep.finalState

/-- The final results of all collected orders. -/
theorem finalizeResults_projects (sub : ids ⊆ view.mine)
    {entries : List (String × List Order)}
    (covers : ∀ collected ∈ entries, view.Covers ids collected)
    (projects : BatchContext.Projects view ids left right) :
    BatchContext.Projects view ids
      (entries.foldl
        (fun context collected =>
          collected.2.foldl
            (fun context order =>
              BatchMatchingEngine.finalizeResult collected.1 order
                context)
            context)
        left)
      ((entries.filter fun collected => view.inside collected.1).foldl
        (fun context collected =>
          collected.2.foldl
            (fun context order =>
              BatchMatchingEngine.finalizeResult collected.1 order
                context)
            context)
        right) := by
  induction entries generalizing left right with
  | nil => exact projects
  | cons collected rest induction =>
      have head := covers collected List.mem_cons_self
      have tail : ∀ later ∈ rest, view.Covers ids later :=
        fun later member => covers later (List.mem_cons_of_mem _ member)
      cases inside : view.inside collected.1 with
      | true =>
          rw [List.filter_cons_of_pos (by exact inside)]
          have mine :
              (both view ids collected.1 left right).Covers
                collected.2 := by
            intro order member
            have facts := head order member
            rw [if_pos inside] at facts
            exact ⟨facts.2, facts.1⟩
          exact induction tail
            (projects.end_both inside
              (finalizeInstrument_alike mine (projects.start_both inside)))
      | false =>
          rw [List.filter_cons_of_neg (by simp [inside])]
          have others :
              (alone view collected.1 left).Covers collected.2 := by
            intro order member
            have facts := head order member
            rw [inside] at facts
            exact ⟨facts.2, facts.1⟩
          exact induction tail
            (projects.end_alone sub inside
              (finalizeInstrument_alike others
                (projects.start_alone inside)))

/-- A batch which returns is followed by the batch of the view. -/
theorem runBatch_projects (draw : String → ℚ) (sub : ids ⊆ view.mine)
    {pending : PendingOrders} {results : BatchResults}
    {reached : BatchContext}
    (covers : ∀ collected ∈ pending.entries, view.Covers ids collected)
    (projects : BatchContext.Projects view ids left right)
    (returns :
      BatchMatchingEngine.runBatch draw pending left =
        .ok results reached) :
    ∃ otherReached,
      BatchMatchingEngine.runBatch draw (pending.keepKeys view.inside)
          right =
        .ok otherReached.results otherReached ∧
      BatchContext.Projects view ids reached otherReached ∧
      results = reached.results := by
  rw [BatchMatchingEngine.runBatch, bind_apply] at returns
  cases matched : BatchMatchingEngine.matchBatchOrders draw pending left with
  | error raised middle =>
      rw [matched] at returns
      cases returns
  | ok value middle =>
      rw [matched] at returns
      have both : ∀ collected ∈ pending.entries,
          view.inside collected.1 = true → ∀ first second,
            BatchContext.Projects view ids first second →
              Lockstep (BatchContext.Projects view ids)
                (BatchMatchingEngine.matchInstrument draw collected)
                (BatchMatchingEngine.matchInstrument draw collected)
                first second :=
        fun collected member inside first second states =>
          states.matchInstrument_both draw (covers collected member) inside
      have alone : ∀ collected ∈ pending.entries,
          view.inside collected.1 = false → ∀ first second changed,
            BatchContext.Projects view ids first second →
              BatchMatchingEngine.matchInstrument draw collected first =
                  .ok ⟨⟩ changed →
                BatchContext.Projects view ids changed second := by
        intro collected member outside first second changed states
          evaluated
        have kept := states.matchInstrument_alone draw sub
          (covers collected member) outside
        rw [evaluated] at kept
        exact kept
      rcases forM_follows_filter both alone projects matched with
        ⟨otherMiddle, otherMatched, middleProjects⟩
      have finals := finalizeResults_projects sub covers middleProjects
      cases returns
      refine ⟨_, ?_, finals, rfl⟩
      have otherBatch : BatchMatchingEngine.matchBatchOrders draw
          (pending.keepKeys view.inside) right = .ok ⟨⟩ otherMiddle :=
        otherMatched
      rw [BatchMatchingEngine.runBatch, bind_apply, otherBatch]
      rfl

end BatchContext.Projects

end InternTradingGame
