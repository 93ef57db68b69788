import Mathlib.Data.List.Nodup
import Mathlib.Data.List.Basic
import Mathlib.Algebra.BigOperators.Group.List.Basic
import Mathlib.Tactic.Abel

/-!
# Dictionaries which remember insertion order

A dictionary is a list of entries whose keys are pairwise distinct.  Writing
to a key that is present keeps its place; a new key goes to the end.  This
is the iteration order a loop over the dictionary sees.

The distinctness of the keys is a field, so every lemma may use it.
-/

/-- A finite map with its keys in insertion order. -/
structure OrderedDict (κ ν : Type*) where
  entries : List (κ × ν)
  distinctKeys : (entries.map Prod.fst).Nodup

namespace OrderedDict

variable {κ ν : Type*}

@[ext]
theorem ext {left right : OrderedDict κ ν}
    (equal : left.entries = right.entries) : left = right := by
  cases left
  cases right
  cases equal
  rfl

/-- The dictionary with no entry. -/
def empty : OrderedDict κ ν where
  entries := []
  distinctKeys := List.nodup_nil

instance : EmptyCollection (OrderedDict κ ν) :=
  ⟨empty⟩

@[simp]
theorem entries_empty :
    (∅ : OrderedDict κ ν).entries = [] :=
  rfl

/-- The keys in insertion order. -/
def keys (dict : OrderedDict κ ν) : List κ :=
  dict.entries.map Prod.fst

/-- The values in the insertion order of their keys. -/
def values (dict : OrderedDict κ ν) : List ν :=
  dict.entries.map Prod.snd

theorem nodup_keys (dict : OrderedDict κ ν) : dict.keys.Nodup :=
  dict.distinctKeys

theorem entry_unique (dict : OrderedDict κ ν)
    {key : κ} {first second : ν}
    (left : (key, first) ∈ dict.entries)
    (right : (key, second) ∈ dict.entries) :
    first = second := by
  have pairEqual :=
    List.inj_on_of_nodup_map dict.distinctKeys left right rfl
  exact congrArg Prod.snd pairEqual

variable [DecidableEq κ]

/-! ## Lookup -/

/-- The value stored under a key. -/
def get? (dict : OrderedDict κ ν) (key : κ) : Option ν :=
  (dict.entries.find? fun entry => entry.1 = key).map Prod.snd

/-- `key in dict`. -/
def Contains (dict : OrderedDict κ ν) (key : κ) : Prop :=
  key ∈ dict.keys

instance (dict : OrderedDict κ ν) (key : κ) :
    Decidable (dict.Contains key) :=
  inferInstanceAs (Decidable (key ∈ dict.keys))

@[simp]
theorem get?_empty (key : κ) :
    (∅ : OrderedDict κ ν).get? key = none :=
  rfl

theorem get?_eq_some_iff
    (dict : OrderedDict κ ν) (key : κ) (value : ν) :
    dict.get? key = some value ↔ (key, value) ∈ dict.entries := by
  constructor
  · intro found
    rcases Option.map_eq_some_iff.mp found with ⟨entry, entryFound, rfl⟩
    have keyEqual : entry.1 = key := by
      simpa using List.find?_some entryFound
    subst keyEqual
    exact List.mem_of_find?_eq_some entryFound
  · intro member
    cases found : dict.entries.find? fun entry => entry.1 = key with
    | none =>
        have absent := List.find?_eq_none.mp found _ member
        simp at absent
    | some entry =>
        have keyEqual : entry.1 = key := by
          simpa using List.find?_some found
        subst keyEqual
        have valueEqual :=
          dict.entry_unique
            (List.mem_of_find?_eq_some found) member
        simp [get?, found, valueEqual]

theorem get?_eq_none_iff
    (dict : OrderedDict κ ν) (key : κ) :
    dict.get? key = none ↔ ¬ dict.Contains key := by
  constructor
  · intro missing present
    rcases List.mem_map.mp present with ⟨entry, member, equal⟩
    have found :=
      (dict.get?_eq_some_iff key entry.2).mpr (equal ▸ member)
    rw [missing] at found
    simp at found
  · intro absent
    cases found : dict.get? key with
    | none => rfl
    | some value =>
        exact absurd
          (List.mem_map_of_mem
            ((dict.get?_eq_some_iff key value).mp found))
          absent

theorem contains_iff_exists
    (dict : OrderedDict κ ν) (key : κ) :
    dict.Contains key ↔ ∃ value, dict.get? key = some value := by
  rw [← not_iff_not, ← get?_eq_none_iff]
  cases dict.get? key <;> simp

theorem contains_of_get?
    {dict : OrderedDict κ ν} {key : κ} {value : ν}
    (found : dict.get? key = some value) :
    dict.Contains key :=
  (dict.contains_iff_exists key).mpr ⟨value, found⟩

/-! ## Writing -/

/-- Replace the value of a key that is present. -/
def overwrite (entries : List (κ × ν)) (key : κ) (value : ν) :
    List (κ × ν) :=
  entries.map fun entry =>
    if entry.1 = key then (key, value) else entry

theorem keys_overwrite
    (entries : List (κ × ν)) (key : κ) (value : ν) :
    (overwrite entries key value).map Prod.fst =
      entries.map Prod.fst := by
  simp only [overwrite, List.map_map]
  apply List.map_congr_left
  intro entry _
  by_cases equal : entry.1 = key
  · simp [equal]
  · simp [equal]

/-- `dict[key] = value`. -/
def set (dict : OrderedDict κ ν) (key : κ) (value : ν) :
    OrderedDict κ ν :=
  if present : dict.Contains key then
    { entries := overwrite dict.entries key value
      distinctKeys := by
        rw [keys_overwrite]
        exact dict.distinctKeys }
  else
    { entries := dict.entries ++ [(key, value)]
      distinctKeys := by
        rw [List.map_append]
        refine List.nodup_append.mpr
          ⟨dict.distinctKeys, List.nodup_singleton _, ?_⟩
        intro left leftMember right rightMember equal
        have rightEqual : right = key := by simpa using rightMember
        subst right
        subst left
        exact present leftMember }

theorem mem_entries_set
    (dict : OrderedDict κ ν) (key other : κ) (value stored : ν) :
    (other, stored) ∈ (dict.set key value).entries ↔
      (other = key ∧ stored = value) ∨
        (other ≠ key ∧ (other, stored) ∈ dict.entries) := by
  by_cases present : dict.Contains key
  · simp only [set, dif_pos present, overwrite, List.mem_map]
    constructor
    · rintro ⟨entry, member, equal⟩
      by_cases same : entry.1 = key
      · rw [if_pos same] at equal
        rcases Prod.mk.inj equal with ⟨rfl, rfl⟩
        exact Or.inl ⟨rfl, rfl⟩
      · rw [if_neg same] at equal
        subst equal
        exact Or.inr ⟨same, member⟩
    · rintro (⟨rfl, rfl⟩ | ⟨different, member⟩)
      · rcases List.mem_map.mp present with ⟨entry, member, equal⟩
        exact ⟨entry, member, by rw [if_pos equal]⟩
      · exact ⟨(other, stored), member, if_neg different⟩
  · simp only [set, dif_neg present, List.mem_append, List.mem_singleton,
      Prod.mk.injEq]
    constructor
    · rintro (member | written)
      · refine Or.inr ⟨?_, member⟩
        rintro rfl
        exact present (List.mem_map_of_mem member)
      · exact Or.inl written
    · rintro (written | ⟨_, member⟩)
      · exact Or.inr written
      · exact Or.inl member

@[simp]
theorem get?_set_self
    (dict : OrderedDict κ ν) (key : κ) (value : ν) :
    (dict.set key value).get? key = some value := by
  rw [get?_eq_some_iff, mem_entries_set]
  exact Or.inl ⟨rfl, rfl⟩

theorem get?_set_ne
    (dict : OrderedDict κ ν) {key other : κ} (value : ν)
    (different : other ≠ key) :
    (dict.set key value).get? other = dict.get? other := by
  ext stored
  rw [get?_eq_some_iff, get?_eq_some_iff, mem_entries_set]
  simp [different]

theorem get?_set
    (dict : OrderedDict κ ν) (key other : κ) (value : ν) :
    (dict.set key value).get? other =
      if other = key then some value else dict.get? other := by
  by_cases equal : other = key
  · subst equal
    simp
  · rw [if_neg equal, get?_set_ne dict value equal]

theorem contains_set
    (dict : OrderedDict κ ν) (key other : κ) (value : ν) :
    (dict.set key value).Contains other ↔
      other = key ∨ dict.Contains other := by
  rw [contains_iff_exists, contains_iff_exists, get?_set]
  by_cases equal : other = key
  · simp [equal]
  · simp [equal]

theorem keys_set_of_contains
    {dict : OrderedDict κ ν} {key : κ} (value : ν)
    (present : dict.Contains key) :
    (dict.set key value).keys = dict.keys := by
  simp only [keys, set, dif_pos present, keys_overwrite]

/-- The keys after a write follow from the keys before it. -/
theorem keys_set_congr {dict : OrderedDict κ ν}
    {other : OrderedDict κ ν} (key : κ) (value otherValue : ν)
    (same : dict.keys = other.keys) :
    (dict.set key value).keys = (other.set key otherValue).keys := by
  by_cases present : dict.Contains key
  · have otherPresent : other.Contains key := by
      rw [Contains, ← same]
      exact present
    rw [keys_set_of_contains _ present,
      keys_set_of_contains _ otherPresent, same]
  · have otherAbsent : ¬ other.Contains key := by
      rw [Contains, ← same]
      exact present
    have entriesSame : dict.entries.map Prod.fst =
        other.entries.map Prod.fst := same
    simp only [keys, set, dif_neg present, dif_neg otherAbsent,
      List.map_append, entriesSame]
    rfl

/-- Writing the value which is already stored changes nothing. -/
theorem set_of_get?
    {dict : OrderedDict κ ν} {key : κ} {value : ν}
    (stored : dict.get? key = some value) :
    dict.set key value = dict := by
  have present : dict.Contains key := contains_of_get? stored
  have member := (dict.get?_eq_some_iff key value).mp stored
  apply OrderedDict.ext
  simp only [set, dif_pos present, overwrite]
  refine (List.map_congr_left ?_).trans (List.map_id _)
  rintro ⟨other, old⟩ entry
  by_cases same : other = key
  · subst same
    rw [dict.entry_unique entry member]
    simp
  · simp [same]

/-! ## Deletion -/

/-- `del dict[key]` for a key that is present. -/
def erase (dict : OrderedDict κ ν) (key : κ) : OrderedDict κ ν where
  entries := dict.entries.filter fun entry => entry.1 ≠ key
  distinctKeys :=
    dict.distinctKeys.sublist
      (List.Sublist.map Prod.fst List.filter_sublist)

theorem get?_erase
    (dict : OrderedDict κ ν) (key other : κ) :
    (dict.erase key).get? other =
      if other = key then none else dict.get? other := by
  ext stored
  rw [get?_eq_some_iff]
  by_cases equal : other = key
  · simp [erase, equal]
  · simp [erase, equal, get?_eq_some_iff]

theorem contains_erase
    (dict : OrderedDict κ ν) (key other : κ) :
    (dict.erase key).Contains other ↔
      other ≠ key ∧ dict.Contains other := by
  rw [contains_iff_exists, contains_iff_exists, get?_erase]
  by_cases equal : other = key
  · simp [equal]
  · simp [equal]

/-! ## Keeping some of the keys -/

/-- The entries whose keys are kept, in their order. -/
def keepKeys (keep : κ → Bool) (dict : OrderedDict κ ν) :
    OrderedDict κ ν where
  entries := dict.entries.filter fun entry => keep entry.1
  distinctKeys :=
    dict.distinctKeys.sublist
      (List.Sublist.map Prod.fst List.filter_sublist)

omit [DecidableEq κ] in
theorem keepKeys_empty (keep : κ → Bool) :
    (∅ : OrderedDict κ ν).keepKeys keep = ∅ :=
  rfl

omit [DecidableEq κ] in
theorem keepKeys_of_forall {keep : κ → Bool} (dict : OrderedDict κ ν)
    (all : ∀ key, keep key = true) : dict.keepKeys keep = dict := by
  ext
  simp [keepKeys, all]

/-- Keeping all keys which are there changes nothing. -/
theorem keepKeys_eq_self {keep : κ → Bool} {dict : OrderedDict κ ν}
    (kept : ∀ key, dict.Contains key → keep key = true) :
    dict.keepKeys keep = dict := by
  apply OrderedDict.ext
  refine List.filter_eq_self.mpr ?_
  intro entry member
  apply kept
  rw [contains_iff_exists]
  exact ⟨entry.2, (dict.get?_eq_some_iff _ _).mpr member⟩

omit [DecidableEq κ] in
theorem keepKeys_keepKeys (keep narrower : κ → Bool)
    (dict : OrderedDict κ ν) :
    (dict.keepKeys keep).keepKeys narrower =
      dict.keepKeys fun key => narrower key && keep key := by
  apply OrderedDict.ext
  exact List.filter_filter

theorem erase_eq_keepKeys (dict : OrderedDict κ ν) (key : κ) :
    dict.erase key = dict.keepKeys fun other => other ≠ key :=
  rfl

theorem get?_keepKeys (keep : κ → Bool) (dict : OrderedDict κ ν)
    (key : κ) :
    (dict.keepKeys keep).get? key =
      if keep key = true then dict.get? key else none := by
  ext stored
  rw [get?_eq_some_iff]
  by_cases kept : keep key = true
  · simp [keepKeys, kept, get?_eq_some_iff]
  · simp [keepKeys, kept]

theorem contains_keepKeys {keep : κ → Bool} (dict : OrderedDict κ ν)
    {key : κ} (kept : keep key = true) :
    (dict.keepKeys keep).Contains key ↔ dict.Contains key := by
  rw [contains_iff_exists, contains_iff_exists, get?_keepKeys, if_pos kept]

/-- A write to a kept key is a write to what is kept. -/
theorem keepKeys_set_of_kept {keep : κ → Bool} (dict : OrderedDict κ ν)
    {key : κ} (value : ν) (kept : keep key = true) :
    (dict.set key value).keepKeys keep =
      (dict.keepKeys keep).set key value := by
  apply OrderedDict.ext
  by_cases present : dict.Contains key
  · have stays := (contains_keepKeys dict kept).mpr present
    simp only [set, dif_pos present, dif_pos stays]
    simp only [keepKeys, overwrite, List.filter_map]
    refine congrArg (List.map _) (List.filter_congr ?_)
    intro entry _
    by_cases same : entry.1 = key
    · simp [same]
    · simp [same]
  · have absent := mt (contains_keepKeys dict kept).mp present
    simp only [set, dif_neg present, dif_neg absent]
    simp [keepKeys, kept]

/-- A write to another key is not seen. -/
theorem keepKeys_set_of_dropped {keep : κ → Bool}
    (dict : OrderedDict κ ν) {key : κ} (value : ν)
    (dropped : keep key = false) :
    (dict.set key value).keepKeys keep = dict.keepKeys keep := by
  apply OrderedDict.ext
  by_cases present : dict.Contains key
  · simp only [set, dif_pos present, keepKeys, overwrite,
      List.filter_map]
    have same : dict.entries.filter
          ((fun entry => keep entry.1) ∘ fun entry : κ × ν =>
            if entry.1 = key then (key, value) else entry) =
        dict.entries.filter fun entry => keep entry.1 := by
      apply List.filter_congr
      intro entry _
      by_cases equal : entry.1 = key
      · simp [equal]
      · simp [equal]
    rw [same]
    refine (List.map_congr_left ?_).trans (List.map_id _)
    intro entry member
    have kept := (List.mem_filter.mp member).2
    rw [if_neg]
    · rfl
    · rintro rfl
      rw [dropped] at kept
      cases kept
  · simp only [set, dif_neg present, keepKeys]
    simp [dropped]

/-- A search through the entries, key by key. -/
theorem findSome?_entries {β : Type*} (dict : OrderedDict κ ν)
    (search : κ × ν → Option β) :
    dict.entries.findSome? search =
      dict.keys.findSome? fun key =>
        (dict.get? key).bind fun value => search (key, value) := by
  have same : ∀ entry ∈ dict.entries,
      search entry =
        (dict.get? entry.1).bind fun value => search (entry.1, value) := by
    intro entry member
    have found := (dict.get?_eq_some_iff entry.1 entry.2).mpr member
    simp [found]
  rw [keys, List.findSome?_map]
  generalize dict.entries = entries at same
  induction entries with
  | nil => rfl
  | cons entry rest induction =>
      rw [List.findSome?_cons, List.findSome?_cons,
        same entry List.mem_cons_self,
        induction fun other member =>
          same other (List.mem_cons_of_mem _ member)]
      rfl

/-- The entries are the keys with what is stored under them. -/
theorem entries_eq_filterMap (dict : OrderedDict κ ν) :
    dict.entries =
      dict.keys.filterMap fun key =>
        (dict.get? key).map fun value => (key, value) := by
  have same : ∀ entry ∈ dict.entries,
      ((dict.get? entry.1).map fun value => (entry.1, value)) =
        some entry := by
    intro entry member
    have found := (dict.get?_eq_some_iff entry.1 entry.2).mpr member
    simp [found]
  rw [keys, List.filterMap_map]
  exact ((List.filterMap_congr same).trans List.filterMap_some).symm

/-- The keys in their order and the values determine a dictionary. -/
theorem ext_get? {left right : OrderedDict κ ν}
    (keys : left.keys = right.keys)
    (values : ∀ key, left.get? key = right.get? key) : left = right := by
  apply OrderedDict.ext
  rw [entries_eq_filterMap left, entries_eq_filterMap right, keys]
  congr 1
  funext key
  rw [values key]

/-- The last write to a key counts. -/
@[simp]
theorem set_set (dict : OrderedDict κ ν) (key : κ) (first second : ν) :
    (dict.set key first).set key second = dict.set key second := by
  have present : (dict.set key first).Contains key :=
    (contains_set dict key key first).mpr (Or.inl rfl)
  apply ext_get?
  · rw [keys_set_of_contains second present]
    exact keys_set_congr key first second rfl
  · intro other
    rw [get?_set, get?_set, get?_set]
    by_cases same : other = key
    · rw [if_pos same, if_pos same]
    · rw [if_neg same, if_neg same, if_neg same]

/-- Writing to a present key may come before or after another write. -/
theorem set_comm_of_contains {dict : OrderedDict κ ν} {key other : κ}
    (different : key ≠ other) (present : dict.Contains key)
    (value otherValue : ν) :
    (dict.set other otherValue).set key value =
      (dict.set key value).set other otherValue := by
  have stillPresent : (dict.set other otherValue).Contains key :=
    (contains_set dict other key otherValue).mpr (Or.inr present)
  apply ext_get?
  · rw [keys_set_of_contains value stillPresent]
    exact keys_set_congr other otherValue otherValue
      (keys_set_of_contains value present).symm
  · intro candidate
    rw [get?_set, get?_set, get?_set, get?_set]
    by_cases same : candidate = key
    · rw [if_pos same, if_neg fun equal => different (same ▸ equal)]
      rw [if_pos same]
    · rw [if_neg same, if_neg same]

/-! ## Dictionaries written out -/

/-- A dictionary display: a later entry replaces an earlier one. -/
def ofEntries (entries : List (κ × ν)) : OrderedDict κ ν :=
  entries.foldl (fun dict entry => dict.set entry.1 entry.2) ∅

/-- Writing new keys in turn appends their entries. -/
theorem entries_foldl_set (dict : OrderedDict κ ν)
    {entries : List (κ × ν)}
    (distinct : ((dict.entries ++ entries).map Prod.fst).Nodup) :
    (entries.foldl (fun dict entry => dict.set entry.1 entry.2)
        dict).entries =
      dict.entries ++ entries := by
  induction entries generalizing dict with
  | nil => simp
  | cons entry rest induction =>
      have absent : ¬ dict.Contains entry.1 := by
        rw [List.map_append, List.nodup_append] at distinct
        intro present
        exact distinct.2.2 entry.1 present entry.1
          (List.mem_map_of_mem List.mem_cons_self) rfl
      have written : (dict.set entry.1 entry.2).entries =
          dict.entries ++ [entry] := by
        simp only [set, dif_neg absent]
      rw [List.foldl_cons, induction, written, List.append_assoc,
        List.singleton_append]
      rw [written, List.append_assoc, List.singleton_append]
      exact distinct

/-- The keys of a display are the ones written down. -/
theorem keys_ofEntries {entries : List (κ × ν)} {names : List κ}
    (written : entries.map Prod.fst = names) (distinct : names.Nodup) :
    (ofEntries entries).keys = names := by
  subst written
  rw [keys, ofEntries, entries_foldl_set ∅ (by simpa using distinct)]
  rfl

/-- What a display stores under a key is written next to it. -/
theorem get?_ofEntries {entries : List (κ × ν)} {names : List κ}
    (written : entries.map Prod.fst = names) (distinct : names.Nodup)
    {key : κ} {value : ν} (member : (key, value) ∈ entries) :
    (ofEntries entries).get? key = some value := by
  subst written
  rw [get?_eq_some_iff, ofEntries,
    entries_foldl_set ∅ (by simpa using distinct)]
  simpa using member

/-! ## Sums over the values -/

section Sum

omit [DecidableEq κ]

variable {M : Type*} [AddCommGroup M]

/-- The sum of a measure over all values. -/
def sumValues (dict : OrderedDict κ ν) (measure : ν → M) : M :=
  (dict.entries.map fun entry => measure entry.2).sum

@[simp]
theorem sumValues_empty (measure : ν → M) :
    (∅ : OrderedDict κ ν).sumValues measure = 0 :=
  rfl

theorem sum_overwrite [DecidableEq κ]
    (entries : List (κ × ν)) (distinct : (entries.map Prod.fst).Nodup)
    (measure : ν → M) {key : κ} {old : ν} (value : ν)
    (member : (key, old) ∈ entries) :
    ((overwrite entries key value).map
        fun entry => measure entry.2).sum =
      (entries.map fun entry => measure entry.2).sum
        - measure old + measure value := by
  induction entries with
  | nil => simp at member
  | cons entry rest induction =>
      simp only [List.map_cons, List.nodup_cons] at distinct
      rcases distinct with ⟨headAbsent, restDistinct⟩
      rcases List.mem_cons.mp member with equal | inRest
      · subst equal
        have untouched : overwrite rest key value = rest := by
          simp only [overwrite]
          refine (List.map_congr_left ?_).trans (List.map_id rest)
          intro other otherMember
          rw [if_neg]
          · rfl
          · intro equal
            exact headAbsent
              (List.mem_map.mpr ⟨other, otherMember, equal⟩)
        have split :
            overwrite ((key, old) :: rest) key value =
              (key, value) :: overwrite rest key value := by
          simp [overwrite]
        rw [split, untouched]
        simp only [List.map_cons, List.sum_cons]
        abel
      · have different : entry.1 ≠ key := by
          intro equal
          exact headAbsent
            (List.mem_map.mpr ⟨(key, old), inRest, equal.symm⟩)
        have split :
            overwrite (entry :: rest) key value =
              entry :: overwrite rest key value := by
          simp [overwrite, different]
        rw [split]
        simp only [List.map_cons, List.sum_cons,
          induction restDistinct inRest]
        abel

/-- A write changes the sum by the difference at the written key. -/
theorem sumValues_set [DecidableEq κ]
    (dict : OrderedDict κ ν) (measure : ν → M) (key : κ) (value : ν) :
    (dict.set key value).sumValues measure =
      dict.sumValues measure
        - ((dict.get? key).map measure).getD 0 + measure value := by
  cases found : dict.get? key with
  | some old =>
      have present := contains_of_get? found
      have member := (dict.get?_eq_some_iff key old).mp found
      simp only [sumValues, set, dif_pos present, Option.map_some,
        Option.getD_some]
      exact
        sum_overwrite dict.entries dict.distinctKeys measure value member
  | none =>
      have absent := (dict.get?_eq_none_iff key).mp found
      simp [sumValues, set, dif_neg absent]

end Sum

end OrderedDict
