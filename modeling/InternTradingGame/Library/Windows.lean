import Mathlib.Data.List.Count
import Mathlib.Order.Lattice

/-!
# Counting events by window

Events fall into windows, and come in the order of their windows.  Such a
log is summarized by one window and one number: the last window an event
fell into, and how many events did.  The summary is replaced when an event
falls into a later window, and it counts exactly the events of the current
window.
-/

namespace Windows

variable {β : Type*} [LinearOrder β]

/-- A number of events, and the window they fell into. -/
abbrev Summary (β : Type*) := Option (ℕ × β)

/-- The number of events of a window, as far as the summary knows. -/
def Summary.read (summary : Summary β) (window : β) : ℕ :=
  match summary with
  | none => 0
  | some (count, last) => if window = last then count else 0

/-- One more event. -/
def Summary.bump (summary : Summary β) (window : β) : Summary β :=
  match summary with
  | none => some (1, window)
  | some (count, last) =>
      if window = last then some (count + 1, last) else some (1, window)

/-- The summary counts the events of the last window of the log. -/
def Summarizes : Summary β → List β → Prop
  | none, log => log = []
  | some (count, last), log =>
      log.count last = count ∧ ∀ window ∈ log, window ≤ last

/-- The summary is not about a later window. -/
def NotAfter (summary : Summary β) (now : β) : Prop :=
  ∀ count last, summary = some (count, last) → last ≤ now

section Summarizes

variable {summary : Summary β} {log : List β} {now later : β}

theorem NotAfter.mono (notAfter : NotAfter summary now)
    (le : now ≤ later) : NotAfter summary later :=
  fun count last equal => (notAfter count last equal).trans le

theorem NotAfter.bump (notAfter : NotAfter summary now) :
    NotAfter (summary.bump now) now := by
  intro count last equal
  cases summary with
  | none =>
      rcases Prod.mk.inj (Option.some.inj equal) with ⟨_, rfl⟩
      exact le_rfl
  | some previous =>
      rcases previous with ⟨number, window⟩
      rw [Summary.bump] at equal
      split_ifs at equal
      · rcases Prod.mk.inj (Option.some.inj equal) with ⟨_, rfl⟩
        exact notAfter number window rfl
      · rcases Prod.mk.inj (Option.some.inj equal) with ⟨_, rfl⟩
        exact le_rfl

/-- The log has no event after a window the summary is not after. -/
theorem Summarizes.le (summarizes : Summarizes summary log)
    (notAfter : NotAfter summary now) : ∀ window ∈ log, window ≤ now := by
  intro window member
  cases summary with
  | none =>
      obtain rfl : log = [] := summarizes
      cases member
  | some previous =>
      exact (summarizes.2 window member).trans
        (notAfter previous.1 previous.2 rfl)

/-- The summary knows the number of events of the current window. -/
theorem Summarizes.read_eq (summarizes : Summarizes summary log)
    (notAfter : NotAfter summary now) :
    summary.read now = log.count now := by
  cases summary with
  | none =>
      obtain rfl : log = [] := summarizes
      rfl
  | some previous =>
      rcases previous with ⟨number, window⟩
      rcases summarizes with ⟨counted, latest⟩
      show (if now = window then number else 0) = log.count now
      split_ifs with same
      · rw [same, counted]
      · have none : now ∉ log := fun member =>
          same (le_antisymm (latest now member)
            (notAfter number window rfl))
        rw [List.count_eq_zero.mpr none]

theorem Summarizes.bump (summarizes : Summarizes summary log)
    (notAfter : NotAfter summary now) :
    Summarizes (summary.bump now) (log ++ [now]) := by
  have latest : ∀ window ∈ log ++ [now], window ≤ now := by
    intro window member
    rcases List.mem_append.mp member with before | last
    · exact summarizes.le notAfter window before
    · exact (List.mem_singleton.mp last).le
  have counted : (log ++ [now]).count now = summary.read now + 1 := by
    rw [List.count_append, List.count_singleton_self,
      summarizes.read_eq notAfter]
  cases summary with
  | none => exact ⟨counted, latest⟩
  | some previous =>
      rcases previous with ⟨number, window⟩
      rw [Summary.read] at counted
      rw [Summary.bump]
      split_ifs at counted ⊢ with same
      · rw [← same]
        exact ⟨counted, latest⟩
      · exact ⟨counted, latest⟩

end Summarizes

/-! ## A limit checked before each event -/

/--
Some window was below the limit when it was checked, and no event has fallen
into a later window yet.
-/
def Admits (limit : ℕ) (now : β) (log : List β) : Prop :=
  ∃ checked ≤ now, (∀ window ∈ log, window ≤ checked) ∧
    log.count checked < limit

/-- No window has more events than the limit, and the summary is right. -/
structure KeepsLimit (limit : ℕ) (now : β) (summary : Summary β)
    (log : List β) : Prop where
  summarizes : Summarizes summary log
  notAfter : NotAfter summary now
  bounded : ∀ window, log.count window ≤ limit

section Limit

variable {limit : ℕ} {now later : β} {summary : Summary β} {log : List β}

theorem KeepsLimit.empty (limit : ℕ) (now : β) :
    KeepsLimit limit now none [] where
  summarizes := rfl
  notAfter := nofun
  bounded := fun _ => Nat.zero_le limit

theorem Admits.mono (admits : Admits limit now log) (le : now ≤ later) :
    Admits limit later log := by
  rcases admits with ⟨checked, before, latest, below⟩
  exact ⟨checked, before.trans le, latest, below⟩

theorem KeepsLimit.mono (keeps : KeepsLimit limit now summary log)
    (le : now ≤ later) : KeepsLimit limit later summary log :=
  ⟨keeps.summarizes, keeps.notAfter.mono le, keeps.bounded⟩

/-- A check of the summary admits an event. -/
theorem KeepsLimit.admits (keeps : KeepsLimit limit now summary log)
    (below : summary.read now < limit) : Admits limit now log := by
  rw [keeps.summarizes.read_eq keeps.notAfter] at below
  exact ⟨now, le_rfl, keeps.summarizes.le keeps.notAfter, below⟩

/-- A check which fails has seen as many events as the limit allows. -/
theorem KeepsLimit.full (keeps : KeepsLimit limit now summary log)
    (full : ¬ summary.read now < limit) : log.count now = limit := by
  rw [keeps.summarizes.read_eq keeps.notAfter] at full
  exact Nat.le_antisymm (keeps.bounded now) (Nat.not_lt.mp full)

/--
An admitted event keeps the limit, even if its own window is a later one
than the one which was checked.
-/
theorem KeepsLimit.event (keeps : KeepsLimit limit now summary log)
    (admits : Admits limit now log) :
    KeepsLimit limit now (summary.bump now) (log ++ [now]) := by
  refine ⟨keeps.summarizes.bump keeps.notAfter, keeps.notAfter.bump, ?_⟩
  intro window
  rcases admits with ⟨checked, le, latest, below⟩
  rw [List.count_append, List.count_singleton]
  split_ifs with isNow
  · obtain rfl : now = window := by simpa using isNow
    rcases le.eq_or_lt with rfl | earlier
    · exact below
    · have none : now ∉ log := fun member =>
        (latest now member).not_gt earlier
      rw [List.count_eq_zero.mpr none]
      omega
  · exact keeps.bounded window

end Limit

end Windows
