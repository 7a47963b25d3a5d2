import Mathlib.Data.List.Pairwise
import Mathlib.Data.List.Perm.Basic

/-! # Tables with uncommitted rows

A table is the list of its committed rows together with the rows that open transactions have
inserted, each tagged with its transaction. Committing moves the rows of one transaction, rolling
back removes them. A partial index assigns some rows an entry; it is unique when no two rows of
the table, committed or not, have the same entry, so a commit never has to check it again.
-/

set_option autoImplicit false

namespace Relational

variable {ι α κ : Type}

/-- No two rows have the same entry in the index. -/
def Distinct (index : α → Option κ) (rows : List α) : Prop :=
  rows.Pairwise fun a b => ∀ entry, index a = some entry → index b ≠ some entry

namespace Distinct

variable {index : α → Option κ} {rows rows' : List α}

private theorem apart_symm {a b : α} (apart : ∀ entry, index a = some entry → index b ≠ some entry) :
    ∀ entry, index b = some entry → index a ≠ some entry :=
  fun entry b a => apart entry a b

instance : Std.Symm fun a b : α => ∀ entry, index a = some entry → index b ≠ some entry :=
  ⟨fun _ _ => apart_symm⟩

/-- An entry names at most one row. -/
theorem eq (distinct : Distinct index rows) {a b : α} {entry : κ} (left : a ∈ rows) (right : b ∈ rows)
    (a_entry : index a = some entry) (b_entry : index b = some entry) : a = b := by
  by_contra different
  exact List.Pairwise.forall distinct left right different entry a_entry b_entry

theorem perm (distinct : Distinct index rows) (same : rows.Perm rows') : Distinct index rows' :=
  (same.pairwise_iff apart_symm).mp distinct

theorem sublist (distinct : Distinct index rows) (part : rows'.Sublist rows) : Distinct index rows' :=
  List.Pairwise.sublist part distinct

/-- An update that keeps the entries. -/
theorem map (distinct : Distinct index rows) {update : α → α}
    (keeps : ∀ row, index (update row) = index row) : Distinct index (rows.map update) := by
  refine List.pairwise_map.mpr (distinct.imp ?_)
  intro a b apart entry a_entry
  rw [keeps] at a_entry ⊢
  exact apart entry a_entry

theorem append_singleton (distinct : Distinct index rows) {row : α}
    (new : ∀ other ∈ rows, index row ≠ none → index other ≠ index row) :
    Distinct index (rows ++ [row]) := by
  refine List.pairwise_append.mpr ⟨distinct, List.pairwise_singleton _ _, ?_⟩
  intro other member row' last entry other_entry row_entry
  obtain rfl := List.mem_singleton.mp last
  exact new other member (by simp [row_entry]) (other_entry.trans row_entry.symm)

/-- A condition that picks out one key holds of exactly one row. -/
theorem countP_eq_one {key : α → κ} (distinct : Distinct (some ∘ key) rows) {row : α} (member : row ∈ rows)
    {selected : α → Bool} (selects : ∀ other ∈ rows, selected other = true ↔ key other = key row) :
    rows.countP selected = 1 := by
  induction rows with
  | nil => cases member
  | cons first rest ih =>
    obtain ⟨apart, others⟩ := List.pairwise_cons.mp distinct
    rw [List.countP_cons]
    rcases List.mem_cons.mp member with rfl | later
    · have none_left : rest.countP selected = 0 := by
        rw [List.countP_eq_zero]
        intro other present chosen
        have same := (selects other (List.mem_cons_of_mem _ present)).mp chosen
        exact apart other present (key row) rfl (congrArg some same)
      simp [none_left, (selects row List.mem_cons_self).mpr rfl]
    · have skipped : ¬ selected first = true := fun chosen =>
        apart row later (key first) rfl
          (congrArg some ((selects first List.mem_cons_self).mp chosen).symm)
      rw [ih others later fun other present => selects other (List.mem_cons_of_mem _ present)]
      simp [skipped]

/-- A condition that needs one entry holds of at most one row. -/
theorem countP_le_one (distinct : Distinct index rows) (entry : κ) {selected : α → Bool}
    (selects : ∀ row, selected row = true → index row = some entry) : rows.countP selected ≤ 1 := by
  induction rows with
  | nil => simp
  | cons first rest ih =>
    obtain ⟨apart, others⟩ := List.pairwise_cons.mp distinct
    rw [List.countP_cons]
    split
    · next hit =>
      have none_left : rest.countP selected = 0 := List.countP_eq_zero.mpr fun other present chosen =>
        apart other present entry (selects first hit) (selects other chosen)
      omega
    · exact ih others

end Distinct

section Selection

variable {rows : List α} {selected inside : α → Bool}

private theorem and_within (within : ∀ row, selected row = true → inside row = true) (row : α) :
    (inside row && selected row) = selected row := by
  cases hit : selected row
  · exact Bool.and_false _
  · rw [within row hit, Bool.true_and]

/-- A condition that only holds inside a selection is checked on the selection. -/
theorem any_filter_within (within : ∀ row, selected row = true → inside row = true) :
    (rows.filter inside).any selected = rows.any selected := by
  rw [List.any_filter]
  exact congrArg (rows.any ·) (funext (and_within within))

theorem find?_filter_within (within : ∀ row, selected row = true → inside row = true) :
    (rows.filter inside).find? selected = rows.find? selected := by
  rw [List.find?_filter]
  refine congrArg (rows.find? ·) (funext fun row => ?_)
  rw [Bool.decide_and, Bool.decide_eq_true, Bool.decide_eq_true, and_within within]

theorem countP_filter_within (within : ∀ row, selected row = true → inside row = true) :
    (rows.filter inside).countP selected = rows.countP selected := by
  rw [List.countP_filter]
  refine congrArg (rows.countP ·) (funext fun row => ?_)
  rw [Bool.and_comm, and_within within]

theorem filter_filter_within (within : ∀ row, selected row = true → inside row = true) :
    (rows.filter inside).filter selected = rows.filter selected := by
  rw [List.filter_filter]
  refine congrArg (rows.filter ·) (funext fun row => ?_)
  rw [Bool.and_comm, and_within within]

/-- An update of the rows that a condition picks out replaces one row if it picks out one. -/
theorem exists_replaced_of_countP (update : α → α) (once : rows.countP selected = 1) :
    ∃ before row after, rows = before ++ row :: after ∧ selected row = true ∧
      (rows.map fun row => if selected row then update row else row) = before ++ update row :: after := by
  obtain ⟨row, member, chosen⟩ := List.countP_pos_iff.mp (by omega : 0 < rows.countP selected)
  obtain ⟨before, after, rfl⟩ := List.append_of_mem member
  rw [List.countP_append, List.countP_cons_of_pos chosen] at once
  have kept {part : List α} (none_chosen : part.countP selected = 0) :
      (part.map fun row => if selected row then update row else row) = part := by
    rw [← List.map_id part, List.map_map]
    apply List.map_congr_left
    intro other there
    exact if_neg (List.countP_eq_zero.mp none_chosen other there)
  refine ⟨before, row, after, rfl, chosen, ?_⟩
  rw [List.map_append, List.map_cons, if_pos chosen, kept (by omega), kept (by omega)]

end Selection

/-- An update that keeps a selection can be made on the selection. -/
theorem filter_map_keep {rows : List α} {inside : α → Bool} {update : α → α}
    (keeps : ∀ row, inside (update row) = inside row) :
    (rows.map update).filter inside = (rows.filter inside).map update := by
  rw [List.filter_map]
  exact congrArg (fun kept => (rows.filter kept).map update) (funext keeps)

/-- An update that only touches rows outside a selection does not change the selection. -/
theorem filter_update {rows : List α} {selected inside : α → Bool} {update : α → α}
    (keeps : ∀ row, inside (update row) = inside row)
    (apart : ∀ row, selected row = true → inside row = false) :
    (rows.map fun row => if selected row then update row else row).filter inside = rows.filter inside := by
  induction rows with
  | nil => rfl
  | cons row rest ih =>
    rw [List.map_cons, List.filter_cons, List.filter_cons, ih]
    by_cases hit : selected row
    · simp [hit, keeps, apart row hit]
    · simp [hit]

variable {tx other : ι} {rows : List α} {pending : List (ι × α)} {row : α}

/-- All rows of a table: its contents as a unique index sees them. -/
def everything (rows : List α) (pending : List (ι × α)) : List α :=
  rows ++ pending.map Prod.snd

theorem mem_everything : row ∈ everything rows pending ↔ row ∈ rows ∨ ∃ tx, (tx, row) ∈ pending := by
  simp [everything]

namespace Distinct

variable {index : α → Option κ}

/-- An update of the committed rows that keeps the entries. -/
theorem map_committed (distinct : Distinct index (everything rows pending)) {update : α → α}
    (keeps : ∀ row, index (update row) = index row) :
    Distinct index (everything (rows.map update) pending) := by
  refine List.pairwise_append.mpr ⟨?_, (List.pairwise_append.mp distinct).2.1, ?_⟩
  · exact Distinct.map (List.pairwise_append.mp distinct).1 keeps
  · intro a left b right entry a_entry
    obtain ⟨old, member, rfl⟩ := List.mem_map.mp left
    exact (List.pairwise_append.mp distinct).2.2 old member b right entry (keeps old ▸ a_entry)

/-- An entry belongs to one transaction at most. -/
theorem owner_eq (distinct : Distinct index (everything rows pending)) {left right : ι × α} {entry : κ}
    (first : left ∈ pending) (second : right ∈ pending) (mine : index left.2 = some entry)
    (theirs : index right.2 = some entry) : left = right := by
  have staged : Distinct (fun entry => index entry.2) pending :=
    List.pairwise_map.mp (List.pairwise_append.mp distinct).2.1
  exact staged.eq first second mine theirs

theorem committed (distinct : Distinct index (everything rows pending)) : Distinct index rows :=
  distinct.sublist (List.sublist_append_left ..)

end Distinct

section Transactions

variable [DecidableEq ι]

/-- The uncommitted rows of a transaction. -/
def own (tx : ι) (pending : List (ι × α)) : List α := (pending.filter (·.1 = tx)).map Prod.snd

/-- The uncommitted rows of all the other transactions. -/
def without (tx : ι) (pending : List (ι × α)) : List (ι × α) := pending.filter (·.1 ≠ tx)

/-- The rows that a transaction sees: the committed ones and its own. -/
def visible (tx : ι) (rows : List α) (pending : List (ι × α)) : List α :=
  rows ++ own tx pending

@[simp] theorem mem_own : row ∈ own tx pending ↔ (tx, row) ∈ pending := by
  simp [own]

@[simp] theorem mem_without {entry : ι × α} : entry ∈ without tx pending ↔ entry ∈ pending ∧ entry.1 ≠ tx := by
  simp [without]

theorem mem_visible : row ∈ visible tx rows pending ↔ row ∈ rows ∨ (tx, row) ∈ pending := by
  simp [visible]

theorem visible_subset : visible tx rows pending ⊆ everything rows pending := by
  intro row seen
  rcases mem_visible.mp seen with old | staged
  · exact mem_everything.mpr (.inl old)
  · exact mem_everything.mpr (.inr ⟨tx, staged⟩)

@[simp] theorem own_append (more : List (ι × α)) : own tx (pending ++ more) = own tx pending ++ own tx more := by
  simp [own]

@[simp] theorem own_singleton_self : own tx [(tx, row)] = [row] := by simp [own]

theorem own_singleton_other (different : other ≠ tx) : own tx [(other, row)] = [] := by
  simp [own, different]

theorem own_without (different : other ≠ tx) : own other (without tx pending) = own other pending := by
  simp only [own, without, List.filter_filter]
  congr 2
  funext entry
  by_cases same : entry.1 = other <;> simp [same, different]

@[simp] theorem own_without_self : own tx (without tx pending) = [] := by
  simp [own, without, List.filter_filter]

/-- Committing only moves rows. -/
theorem publish_perm : (everything (rows ++ own tx pending) (without tx pending)).Perm
    (everything rows pending) := by
  simp only [everything, own, without, List.append_assoc, ← List.map_append]
  refine List.Perm.append_left _ (List.Perm.map _ ?_)
  simpa using List.filter_append_perm (fun entry : ι × α => decide (entry.1 = tx)) pending

theorem discard_sublist : (everything rows (without tx pending)).Sublist
    (everything rows pending) :=
  (List.Sublist.refl rows).append (List.filter_sublist.map _)

namespace Distinct

variable {index : α → Option κ}

theorem publish (distinct : Distinct index (everything rows pending)) :
    Distinct index (everything (rows ++ own tx pending) (without tx pending)) :=
  distinct.perm publish_perm.symm

theorem discard (distinct : Distinct index (everything rows pending)) :
    Distinct index (everything rows (without tx pending)) :=
  distinct.sublist discard_sublist

/-- The check of an insertion: it looks at the rows the transaction sees and at the foreign
uncommitted ones. -/
theorem stage (distinct : Distinct index (everything rows pending))
    (seen : ∀ other ∈ visible tx rows pending, index row ≠ none → index other ≠ index row)
    (foreign : ∀ entry ∈ without tx pending, index row ≠ none → index entry.2 ≠ index row) :
    Distinct index (everything rows (pending ++ [(tx, row)])) := by
  rw [everything, List.map_append, ← List.append_assoc]
  apply distinct.append_singleton
  intro other member
  rcases mem_everything.mp member with old | ⟨owner, staged⟩
  · exact seen other (mem_visible.mpr (.inl old))
  · by_cases mine : owner = tx
    · exact seen other (mem_visible.mpr (.inr (mine ▸ staged)))
    · exact foreign (owner, other) (mem_without.mpr ⟨staged, mine⟩)

end Distinct

end Transactions

/-! ## Keyed entries -/

section Keyed

variable {β : Type} [DecidableEq ι] {key found : ι} {entries : List (ι × β)}

private theorem lookup_cons_other {name : ι} {value : β} (different : found ≠ name) :
    ((name, value) :: entries).lookup found = entries.lookup found := by
  rw [List.lookup_cons, beq_eq_false_iff_ne.mpr different]

theorem lookup_without (different : found ≠ key) :
    (without key entries).lookup found = entries.lookup found := by
  unfold without
  induction entries with
  | nil => rfl
  | cons entry rest ih =>
    obtain ⟨name, value⟩ := entry
    by_cases mine : name = key
    · rw [List.filter_cons_of_neg (by simp [mine]), ih, lookup_cons_other (mine ▸ different)]
    · rw [List.filter_cons_of_pos (by simp [mine]), List.lookup_cons, List.lookup_cons, ih]

@[simp] theorem lookup_without_self : (without key entries).lookup key = none := by
  rw [List.lookup_eq_none_iff]
  intro entry member
  simpa using Ne.symm (mem_without.mp member).2

/-- Changing the values under one key. -/
theorem lookup_change (change : β → β) :
    (entries.map fun entry => if entry.1 = key then (key, change entry.2) else entry).lookup found =
      if found = key then (entries.lookup found).map change else entries.lookup found := by
  induction entries with
  | nil => simp
  | cons entry rest ih =>
    obtain ⟨name, value⟩ := entry
    rw [List.map_cons]
    by_cases same : found = name
    · subst same
      by_cases mine : found = key <;> simp [mine]
    · rw [lookup_cons_other same, ← ih]
      split
      · next mine => exact lookup_cons_other (mine ▸ same)
      · exact lookup_cons_other same

end Keyed

end Relational
