/-!
# The order of texts

Texts are put in order by their code points, from the first character on. Sorting keeps every
occurrence; `distinct` keeps the first occurrence of each and `sortedDistinct` does both.
-/

namespace SampleTypes.Text.Order

/-- The texts in order. -/
def sort (texts : List String) : List String :=
  texts.mergeSort fun one other => decide (one ≤ other)

/-- The first occurrence of each text. -/
def distinct (texts : List String) : List String :=
  texts.eraseDups

/-- Each text once, in order. -/
def sortedDistinct (texts : List String) : List String :=
  sort (distinct texts)

theorem mem_sort {text : String} {texts : List String} : text ∈ sort texts ↔ text ∈ texts := by
  simp [sort]

/-- Sorting puts every text before those that are greater. -/
theorem pairwise_sort (texts : List String) : (sort texts).Pairwise (· ≤ ·) := by
  have htrans : ∀ a b c : String, decide (a ≤ b) = true → decide (b ≤ c) = true →
      decide (a ≤ c) = true := by
    intro a b c hab hbc
    exact decide_eq_true (String.le_trans (of_decide_eq_true hab) (of_decide_eq_true hbc))
  have htotal : ∀ a b : String, (decide (a ≤ b) || decide (b ≤ a)) = true := by
    intro a b
    rw [Bool.or_eq_true, decide_eq_true_iff, decide_eq_true_iff]
    exact String.le_total a b
  exact (List.pairwise_mergeSort htrans htotal texts).imp of_decide_eq_true

theorem mem_distinct {text : String} {texts : List String} :
    text ∈ distinct texts ↔ text ∈ texts :=
  List.mem_eraseDups

theorem mem_sortedDistinct {text : String} {texts : List String} :
    text ∈ sortedDistinct texts ↔ text ∈ texts :=
  mem_sort.trans mem_distinct

theorem nodup_distinct (texts : List String) : (distinct texts).Nodup := by
  match texts with
  | [] => exact List.nodup_nil
  | text :: rest =>
    rw [distinct, List.eraseDups_cons, List.nodup_cons]
    refine ⟨?_, nodup_distinct _⟩
    rw [List.mem_eraseDups]
    simp
termination_by texts.length
decreasing_by
  have hle := List.length_filter_le (fun other => !other == text) rest
  simp only [List.length_cons]
  omega

theorem nodup_of_pairwise_lt {texts : List String} (h : texts.Pairwise (· < ·)) :
    texts.Nodup := by
  refine List.Pairwise.imp ?_ h
  intro a b hlt heq
  rw [heq] at hlt
  exact String.lt_irrefl _ hlt

theorem lt_of_le_of_ne {one other : String} (hle : one ≤ other) (hne : one ≠ other) :
    one < other :=
  String.not_le.1 fun hge => hne (String.le_antisymm hle hge)

/-- Distinct texts that are put in order increase. -/
theorem pairwise_lt_sort {texts : List String} (h : texts.Nodup) :
    (sort texts).Pairwise (· < ·) := by
  have hnodup : (sort texts).Nodup := (List.mergeSort_perm _ _).nodup_iff.2 h
  exact ((pairwise_sort _).and hnodup).imp fun h => lt_of_le_of_ne h.1 h.2

/-- Texts that are put in order without repetition increase. -/
theorem pairwise_sortedDistinct (texts : List String) :
    (sortedDistinct texts).Pairwise (· < ·) :=
  pairwise_lt_sort (nodup_distinct texts)

end SampleTypes.Text.Order
