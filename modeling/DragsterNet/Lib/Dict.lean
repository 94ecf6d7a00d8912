/-
Module: DragsterNet.Lib.Dict
Purpose: Dictionaries that keep the order of insertion: an entry that is
  replaced keeps its place, a new one goes to the end.
Trusted boundary: none
Main exports: Dict, Dict.get?, Dict.set, Dict.erase, Dict.popFirst, Dict.keys
-/
import Mathlib.Data.List.Nodup

namespace DragsterNet.Lib

/-! ### Lists -/

section Lists

variable {α β : Type} {f : α → β} {item : α} {list : List α}

theorem map_erase_of [BEq α] [LawfulBEq α] [BEq β] [LawfulBEq β] (only : ∀ other ∈ list, f other = f item → other = item) :
    (list.erase item).map f = (list.map f).erase (f item) := by
  induction list with
  | nil => rfl
  | cons first rest inductionHypothesis =>
      by_cases same : first = item
      · subst same
        rw [List.erase_cons_head, List.map_cons, List.erase_cons_head]
      · have apart : f first ≠ f item := fun eq => same (only first List.mem_cons_self eq)
        rw [List.erase_cons_tail (by simpa using same), List.map_cons, List.map_cons,
          List.erase_cons_tail (by simpa using apart),
          inductionHypothesis fun other member => only other (List.mem_cons_of_mem _ member)]

theorem find?_eraseP_of {p q : α → Bool} (apart : ∀ other, p other = true → q other = false) :
    (list.eraseP p).find? q = list.find? q := by
  induction list with
  | nil => rfl
  | cons first rest inductionHypothesis =>
      cases erased : p first with
      | true =>
          rw [List.eraseP_cons_of_pos erased, List.find?_cons, apart first erased]
      | false =>
          rw [List.eraseP_cons_of_neg (by rw [erased]; exact Bool.false_ne_true),
            List.find?_cons, List.find?_cons, inductionHypothesis]

end Lists

variable {κ ν : Type} [DecidableEq κ]

/-! ### Entries -/

/-- Replaces the value at `key` where it stands, or appends the entry. -/
def assign (key : κ) (value : ν) : List (κ × ν) → List (κ × ν)
  | [] => [(key, value)]
  | entry :: rest =>
      if entry.1 = key then (key, value) :: rest else entry :: assign key value rest

/-- Removes the entry at `key`. -/
def discard (key : κ) (entries : List (κ × ν)) : List (κ × ν) :=
  entries.filter fun entry => entry.1 ≠ key

theorem keys_assign (key : κ) (value : ν) (entries : List (κ × ν)) :
    (assign key value entries).map Prod.fst =
      if key ∈ entries.map Prod.fst then entries.map Prod.fst
      else entries.map Prod.fst ++ [key] := by
  induction entries with
  | nil => rfl
  | cons entry rest inductionHypothesis =>
      by_cases same : entry.1 = key
      · simp [assign, same]
      · have other : ¬ key = entry.1 := fun eq => same eq.symm
        simp only [assign, same, if_false, List.map_cons, inductionHypothesis, List.mem_cons,
          other, false_or]
        split <;> rfl

theorem lookup_eq (key : κ) (entry : κ × ν) (rest : List (κ × ν)) :
    (entry :: rest).lookup key =
      if key = entry.1 then some entry.2 else rest.lookup key := by
  cases entry with
  | mk first second =>
      by_cases same : key = first
      · have found : (key == first) = true := beq_iff_eq.mpr same
        rw [if_pos same, List.lookup_cons, found]
      · have missed : (key == first) = false := beq_eq_false_iff_ne.mpr same
        rw [if_neg same, List.lookup_cons, missed]

theorem lookup_assign (key other : κ) (value : ν) (entries : List (κ × ν)) :
    (assign key value entries).lookup other =
      if other = key then some value else entries.lookup other := by
  induction entries with
  | nil => exact lookup_eq other (key, value) []
  | cons entry rest inductionHypothesis =>
      by_cases here : entry.1 = key
      · rw [assign, if_pos here, lookup_eq, lookup_eq, here]
        split <;> rfl
      · rw [assign, if_neg here, lookup_eq, lookup_eq, inductionHypothesis]
        by_cases same : other = key
        · have apart : ¬ other = entry.1 := fun eq => here (eq.symm.trans same)
          rw [if_neg apart, if_pos same, if_pos same]
        · rw [if_neg same, if_neg same]

theorem lookup_discard (key other : κ) (entries : List (κ × ν)) :
    (discard key entries).lookup other =
      if other = key then none else entries.lookup other := by
  induction entries with
  | nil => simp [discard]
  | cons entry rest inductionHypothesis =>
      by_cases here : entry.1 = key
      · have gone : discard key (entry :: rest) = discard key rest := by
          simp [discard, here]
        rw [gone, inductionHypothesis, lookup_eq, here]
        split <;> rfl
      · have kept : discard key (entry :: rest) = entry :: discard key rest := by
          simp [discard, here]
        rw [kept, lookup_eq, lookup_eq, inductionHypothesis]
        by_cases same : other = key
        · have apart : ¬ other = entry.1 := fun eq => here (eq.symm.trans same)
          rw [if_neg apart, if_pos same, if_pos same]
        · rw [if_neg same, if_neg same]

theorem lookup_isSome_iff (key : κ) (entries : List (κ × ν)) :
    (entries.lookup key).isSome ↔ key ∈ entries.map Prod.fst := by
  induction entries with
  | nil => simp
  | cons entry rest inductionHypothesis =>
      rw [lookup_eq, List.map_cons, List.mem_cons, ← inductionHypothesis]
      split
      · rename_i same
        simp [same]
      · rename_i apart
        simp [apart]

variable {key : κ} {value : ν} {entries : List (κ × ν)} {index : Nat}

theorem mem_of_lookup (looked : entries.lookup key = some value) : (key, value) ∈ entries := by
  induction entries with
  | nil => cases looked
  | cons first rest inductionHypothesis =>
      rw [lookup_eq] at looked
      split at looked
      · rename_i same
        obtain rfl := Option.some.inj looked
        subst same
        exact List.mem_cons_self
      · exact List.mem_cons_of_mem _ (inductionHypothesis looked)

theorem lookup_of_mem (distinct : (entries.map Prod.fst).Nodup) (member : (key, value) ∈ entries) :
    entries.lookup key = some value := by
  obtain ⟨value', looked⟩ := Option.isSome_iff_exists.mp
    ((lookup_isSome_iff key entries).mpr (List.mem_map_of_mem member))
  have same := List.inj_on_of_nodup_map distinct (mem_of_lookup looked) member rfl
  obtain rfl := congrArg Prod.snd same
  exact looked

/-! ### Entries in an array, searched from the front -/

theorem assign_fresh (fresh : key ∉ entries.map Prod.fst) :
    assign key value entries = entries ++ [(key, value)] := by
  induction entries with
  | nil => rfl
  | cons entry rest inductionHypothesis =>
      rw [List.map_cons, List.mem_cons, not_or] at fresh
      rw [assign, if_neg fun same => fresh.1 same.symm, inductionHypothesis fresh.2]
      rfl

theorem assign_found (found : entries.findIdx? (fun entry => entry.1 = key) = some index) :
    assign key value entries = entries.set index (key, value) := by
  induction entries generalizing index with
  | nil => cases found
  | cons entry rest inductionHypothesis =>
      rw [List.findIdx?_cons] at found
      by_cases same : entry.1 = key
      · rw [if_pos (decide_eq_true same)] at found
        obtain rfl := Option.some.inj found
        rw [assign, if_pos same]
        rfl
      · rw [if_neg (by simpa using same)] at found
        obtain ⟨later, found', rfl⟩ := Option.map_eq_some_iff.mp found
        rw [assign, if_neg same, inductionHypothesis found']
        rfl

theorem lookup_found (found : entries.findIdx? (fun entry => entry.1 = key) = some index) :
    ∃ value, entries[index]? = some (key, value) ∧ entries.lookup key = some value := by
  induction entries generalizing index with
  | nil => cases found
  | cons entry rest inductionHypothesis =>
      rw [List.findIdx?_cons] at found
      by_cases same : entry.1 = key
      · rw [if_pos (decide_eq_true same)] at found
        obtain rfl := Option.some.inj found
        subst same
        exact ⟨entry.2, rfl, by rw [lookup_eq, if_pos rfl]⟩
      · rw [if_neg (by simpa using same)] at found
        obtain ⟨later, found', rfl⟩ := Option.map_eq_some_iff.mp found
        rw [lookup_eq, if_neg fun eq => same eq.symm]
        exact inductionHypothesis found'

theorem lookup_missed (missed : entries.findIdx? (fun entry => entry.1 = key) = none) :
    entries.lookup key = none := by
  rw [← Option.not_isSome_iff_eq_none, lookup_isSome_iff]
  intro member
  obtain ⟨entry, member', same⟩ := List.mem_map.mp member
  have apart := List.findIdx?_eq_none_iff.mp missed entry member'
  exact of_decide_eq_false apart same

theorem discard_fresh (fresh : key ∉ entries.map Prod.fst) : discard key entries = entries := by
  apply List.filter_eq_self.mpr
  intro entry member
  apply decide_eq_true
  rintro rfl
  exact fresh (List.mem_map_of_mem member)

theorem discard_found (distinct : (entries.map Prod.fst).Nodup)
    (found : entries.findIdx? (fun entry => entry.1 = key) = some index) :
    discard key entries = entries.eraseIdx index := by
  induction entries generalizing index with
  | nil => cases found
  | cons entry rest inductionHypothesis =>
      rw [List.map_cons, List.nodup_cons] at distinct
      rw [List.findIdx?_cons] at found
      by_cases same : entry.1 = key
      · rw [if_pos (decide_eq_true same)] at found
        obtain rfl := Option.some.inj found
        subst same
        have first : discard entry.1 (entry :: rest) = discard entry.1 rest := by
          simp [discard]
        rw [first, discard_fresh distinct.1]
        rfl
      · rw [if_neg (by simpa using same)] at found
        obtain ⟨later, found', rfl⟩ := Option.map_eq_some_iff.mp found
        have first : discard key (entry :: rest) = entry :: discard key rest := by
          simp [discard, same]
        rw [first, inductionHypothesis distinct.2 found']
        rfl

/-! ### The dictionary -/

/-- The entries in the order of insertion; no key stands twice. -/
structure Dict (κ ν : Type) [DecidableEq κ] where
  entries : List (κ × ν)
  distinct : (entries.map Prod.fst).Nodup

namespace Dict

variable {dict : Dict κ ν} {key other : κ} {value : ν}

def empty : Dict κ ν := ⟨[], List.nodup_nil⟩

def keys (dict : Dict κ ν) : List κ := dict.entries.map Prod.fst

def size (dict : Dict κ ν) : Nat := dict.entries.length

def get? (dict : Dict κ ν) (key : κ) : Option ν := dict.entries.lookup key

def set (dict : Dict κ ν) (key : κ) (value : ν) : Dict κ ν where
  entries := assign key value dict.entries
  distinct := by
    rw [keys_assign]
    split
    · exact dict.distinct
    · rename_i fresh
      rw [← List.concat_eq_append]
      exact dict.distinct.concat fresh

def erase (dict : Dict κ ν) (key : κ) : Dict κ ν where
  entries := discard key dict.entries
  distinct := dict.distinct.sublist (List.filter_sublist.map Prod.fst)

/-- Removes the oldest entry. -/
def popFirst (dict : Dict κ ν) : Dict κ ν where
  entries := dict.entries.tail
  distinct := dict.distinct.sublist ((List.tail_sublist dict.entries).map Prod.fst)

@[simp] theorem get?_empty : (empty : Dict κ ν).get? key = none := rfl

@[simp] theorem get?_set : (dict.set key value).get? other =
    if other = key then some value else dict.get? other :=
  lookup_assign key other value dict.entries

@[simp] theorem get?_erase : (dict.erase key).get? other =
    if other = key then none else dict.get? other :=
  lookup_discard key other dict.entries

theorem get?_isSome_iff : (dict.get? key).isSome ↔ key ∈ dict.keys :=
  lookup_isSome_iff key dict.entries

theorem get?_eq_none_iff : dict.get? key = none ↔ key ∉ dict.keys := by
  rw [← get?_isSome_iff]
  cases dict.get? key <;> simp

theorem mem_entries : (key, value) ∈ dict.entries ↔ dict.get? key = some value :=
  ⟨lookup_of_mem dict.distinct, mem_of_lookup⟩

theorem keys_set : (dict.set key value).keys =
    if key ∈ dict.keys then dict.keys else dict.keys ++ [key] :=
  keys_assign key value dict.entries

theorem mem_keys_set : other ∈ (dict.set key value).keys ↔
    other = key ∨ other ∈ dict.keys := by
  rw [← get?_isSome_iff, get?_set, ← get?_isSome_iff]
  split <;> simp_all

theorem keys_erase : (dict.erase key).keys = dict.keys.filter (· ≠ key) := by
  unfold keys erase discard
  rw [List.filter_map]
  rfl

theorem size_keys : dict.size = dict.keys.length := by
  unfold size keys
  rw [List.length_map]

theorem size_set : (dict.set key value).size =
    if key ∈ dict.keys then dict.size else dict.size + 1 := by
  rw [size_keys, keys_set, size_keys]
  split
  · rfl
  · rw [List.length_append]
    rfl

theorem size_erase_le : (dict.erase key).size ≤ dict.size := by
  rw [size_keys, keys_erase, size_keys]
  exact List.length_filter_le _ _

/-- What is set and erased again leaves nothing behind. -/
theorem size_set_erase_le : ((dict.set key value).erase key).size ≤ dict.size := by
  rw [size_keys, keys_erase, keys_set, size_keys]
  split
  · exact List.length_filter_le _ _
  · rw [List.filter_append]
    have gone : [key].filter (· ≠ key) = [] := by simp
    rw [gone, List.append_nil]
    exact List.length_filter_le _ _

/-- The oldest entries go until at most `limit` are left. -/
def trim (limit : Nat) (dict : Dict κ ν) : Dict κ ν where
  entries := dict.entries.drop (dict.entries.length - limit)
  distinct := dict.distinct.sublist ((List.drop_sublist _ dict.entries).map Prod.fst)

theorem size_trim_le {limit : Nat} : (dict.trim limit).size ≤ limit := by
  unfold size trim
  rw [List.length_drop]
  omega

/-- Trimming is popping the oldest entry while there are too many. -/
theorem trim_step (limit : Nat) (dict : Dict κ ν) :
    dict.trim limit = if limit < dict.size then dict.popFirst.trim limit else dict := by
  obtain ⟨entries, distinct⟩ := dict
  unfold trim popFirst size
  split
  · rename_i exceeds
    congr 1
    rw [List.length_tail, List.drop_tail]
    congr 1
    simp only at exceeds ⊢
    omega
  · rename_i fits
    congr 1
    simp only at fits ⊢
    rw [Nat.sub_eq_zero_of_le (by omega)]
    exact List.drop_zero

end Dict

end DragsterNet.Lib
