import Mathlib.Data.List.Nodup

/-!
# Items with labels

Where the parts of a list bear the labels of what they come from, the parts with one label can be
picked out again (`filter_label_flatMap`). Sorting items by their labels is stable if it keeps the
order of those that have the same label. There is only one such order (`eq_of_filter_eq`), so it
does not matter whether the items are merged or laid out label by label
(`flatMap_filter_eq_mergeSort`).
-/

namespace DeclIndex.Sequence

/-! ## Choosing by label -/

section Choosing

variable {α β γ : Type} {items : List α} {parts : α → List β} {chosen : β → Bool}
  {wanted : α → Bool}

theorem filter_flatMap_of_forall
    (agrees : ∀ item ∈ items, ∀ part ∈ parts item, chosen part = wanted item) :
    (items.flatMap parts).filter chosen = (items.filter wanted).flatMap parts := by
  induction items with
  | nil => rfl
  | cons item items inductionHypothesis =>
      rcases List.forall_mem_cons.mp agrees with ⟨agreesHere, agreesLater⟩
      rw [List.flatMap_cons, List.filter_append, inductionHypothesis agreesLater]
      cases isWanted : wanted item with
      | true =>
          have isAll : (parts item).filter chosen = parts item := by
            apply List.filter_eq_self.mpr
            intro part isPart
            rw [agreesHere part isPart, isWanted]
          rw [isAll, List.filter_cons_of_pos isWanted, List.flatMap_cons]
      | false =>
          have isNone : (parts item).filter chosen = [] := by
            apply List.filter_eq_nil_iff.mpr
            intro part isPart
            rw [agreesHere part isPart, isWanted]
            exact Bool.false_ne_true
          rw [isNone, List.filter_cons_of_neg (by simp [isWanted]), List.nil_append]

theorem filter_flatMap_congr {partsToo : α → List β}
    (agrees : ∀ item ∈ items, ∀ part ∈ parts item, chosen part = wanted item)
    (agreesToo : ∀ item ∈ items, ∀ part ∈ partsToo item, chosen part = wanted item)
    (same : ∀ item ∈ items, wanted item = true → parts item = partsToo item) :
    (items.flatMap parts).filter chosen = (items.flatMap partsToo).filter chosen := by
  rw [filter_flatMap_of_forall agrees, filter_flatMap_of_forall agreesToo]
  apply List.flatMap_congr
  intro item isWanted
  rcases List.mem_filter.mp isWanted with ⟨isItem, isWanted⟩
  exact same item isItem isWanted

theorem filter_eq_singleton [DecidableEq α] [BEq γ] [LawfulBEq γ] {label : α → γ} {item : α}
    (distinct : (items.map label).Nodup) (isItem : item ∈ items) :
    items.filter (fun other => label other == label item) = [item] := by
  have onlyItem : ∀ other ∈ items, (label other == label item) = (other == item) := by
    intro other isOther
    rw [Bool.eq_iff_iff, beq_iff_eq, beq_iff_eq]
    exact ⟨List.inj_on_of_nodup_map distinct isOther isItem, congrArg label⟩
  rw [List.filter_congr onlyItem, List.filter_beq,
    List.count_eq_one_of_mem (List.Nodup.of_map label distinct) isItem]
  rfl

/-- Of parts that bear the labels of distinct items, those with one label are those of one item. -/
theorem filter_label_flatMap [DecidableEq α] [BEq γ] [LawfulBEq γ] {label : α → γ}
    {labelOf : β → γ} {item : α} (distinct : (items.map label).Nodup) (isItem : item ∈ items)
    (isLabelled : ∀ item ∈ items, ∀ part ∈ parts item, labelOf part = label item) :
    (items.flatMap parts).filter (fun part => labelOf part == label item) = parts item := by
  have agrees : ∀ other ∈ items, ∀ part ∈ parts other,
      (labelOf part == label item) = (label other == label item) := by
    intro other isOther part isPart
    rw [isLabelled other isOther part isPart]
  rw [filter_flatMap_of_forall agrees, filter_eq_singleton distinct isItem, List.flatMap_singleton]

end Choosing

/-! ## Each label once -/

theorem nodup_eraseDups {α : Type} [BEq α] [LawfulBEq α] (items : List α) :
    items.eraseDups.Nodup := by
  cases items with
  | nil => simp
  | cons first items =>
      rw [List.eraseDups_cons, List.nodup_cons, List.mem_eraseDups]
      refine ⟨by simp, nodup_eraseDups _⟩
termination_by items.length
decreasing_by exact Nat.lt_succ_of_le (List.length_filter_le _ _)

theorem eraseDups_concat_of_mem {α : Type} [BEq α] [LawfulBEq α] {items : List α} {item : α}
    (isMet : item ∈ items) : (items ++ [item]).eraseDups = items.eraseDups := by
  rw [List.eraseDups_append, List.removeAll, List.filter_cons_of_neg (by simpa using isMet)]
  exact List.append_nil _

theorem eraseDups_concat_of_notMem {α : Type} [BEq α] [LawfulBEq α] {items : List α} {item : α}
    (isNew : item ∉ items) : (items ++ [item]).eraseDups = items.eraseDups ++ [item] := by
  rw [List.eraseDups_append, List.removeAll, List.filter_cons_of_pos (by simpa using isNew)]
  rfl

theorem pairwise_lt_of_nodup {names : List String} (isSorted : names.Pairwise (· ≤ ·))
    (distinct : names.Nodup) : names.Pairwise (· < ·) := by
  apply (isSorted.and distinct).imp
  intro name other isLess
  exact Std.lt_of_le_of_ne isLess.1 isLess.2

/-! ## Sorting by label -/

variable {α : Type} {label : α → String} {items sorted others : List α}

/-- The items stand in the order of their labels, and those with the same label in the order that
they had. -/
structure IsStableSort (label : α → String) (items sorted : List α) : Prop where
  perm : sorted.Perm items
  ordered : sorted.Pairwise fun item other => label item ≤ label other
  stable : ∀ text, sorted.filter (label · == text) = items.filter (label · == text)

theorem decide_label_trans (label : α → String) (first second third : α) :
    decide (label first ≤ label second) = true → decide (label second ≤ label third) = true →
      decide (label first ≤ label third) = true := by
  simpa only [decide_eq_true_eq] using String.le_trans

theorem decide_label_total (label : α → String) (first second : α) :
    (decide (label first ≤ label second) || decide (label second ≤ label first)) = true := by
  simpa using String.le_total (label first) (label second)

theorem ordered_mergeSort (label : α → String) (items : List α) :
    (items.mergeSort fun item other => decide (label item ≤ label other)).Pairwise
      fun item other => label item ≤ label other := by
  have isSorted := List.pairwise_mergeSort (decide_label_trans label) (decide_label_total label)
    items
  exact isSorted.imp fun isLess => of_decide_eq_true isLess

theorem label_of_mem_filter {item : α} {text : String}
    (isItem : item ∈ items.filter (label · == text)) : label item = text := by
  simpa using (List.mem_filter.mp isItem).2

theorem ordered_filter (label : α → String) (items : List α) (text : String) :
    (items.filter (label · == text)).Pairwise fun item other => label item ≤ label other := by
  apply List.pairwise_of_forall_mem_list
  intro item isItem other isOther
  have sameLabel : label item = label other :=
    (label_of_mem_filter isItem).trans (label_of_mem_filter isOther).symm
  exact sameLabel ▸ String.le_refl (label item)

/-- The items with one label are in order already, so merging keeps them as they are. -/
theorem filter_mergeSort (label : α → String) (items : List α) (text : String) :
    (items.mergeSort fun item other => decide (label item ≤ label other)).filter
        (label · == text) =
      items.filter (label · == text) := by
  have isOrdered := (ordered_filter label items text).imp fun isLess => decide_eq_true isLess
  have isPart := List.sublist_mergeSort (decide_label_trans label) (decide_label_total label)
    isOrdered List.filter_sublist
  have isPartToo := isPart.filter (label · == text)
  simp only [List.filter_filter, Bool.and_self] at isPartToo
  have sameLength := ((List.mergeSort_perm items fun item other =>
    decide (label item ≤ label other)).filter (label · == text)).length_eq
  exact (isPartToo.eq_of_length sameLength.symm).symm

theorem label_le_of_mem {item first : α}
    (ordered : (first :: items).Pairwise fun item other => label item ≤ label other)
    (isItem : item ∈ first :: items) : label first ≤ label item := by
  rcases List.mem_cons.mp isItem with rfl | isItem
  · exact String.le_refl _
  · exact List.rel_of_pairwise_cons ordered isItem

theorem mem_of_filter_eq {item : α}
    (same : ∀ text, items.filter (label · == text) = others.filter (label · == text))
    (isItem : item ∈ items) : item ∈ others := by
  have isChosen : item ∈ items.filter (label · == label item) :=
    List.mem_filter.mpr ⟨isItem, beq_self_eq_true _⟩
  rw [same] at isChosen
  exact (List.mem_filter.mp isChosen).1

/-- Items in order are known from those with each label. -/
theorem eq_of_filter_eq (ordered : items.Pairwise fun item other => label item ≤ label other)
    (orderedToo : others.Pairwise fun item other => label item ≤ label other)
    (same : ∀ text, items.filter (label · == text) = others.filter (label · == text)) :
    items = others := by
  induction items generalizing others with
  | nil =>
      apply Eq.symm
      apply List.eq_nil_iff_forall_not_mem.mpr
      intro other isOther
      cases mem_of_filter_eq (fun text => (same text).symm) isOther
  | cons item items inductionHypothesis =>
      have isItem : item ∈ others := mem_of_filter_eq same List.mem_cons_self
      cases others with
      | nil => cases isItem
      | cons other others =>
          have isOther : other ∈ item :: items :=
            mem_of_filter_eq (fun text => (same text).symm) List.mem_cons_self
          -- Each list holds the other one's first item, so neither of their labels is the smaller.
          have sameLabel : label item = label other :=
            String.le_antisymm (label_le_of_mem ordered isOther)
              (label_le_of_mem orderedToo isItem)
          have sameFirst := same (label other)
          rw [List.filter_cons_of_pos (by simp [sameLabel]), List.filter_cons_of_pos (by simp)]
            at sameFirst
          cases (List.cons.inj sameFirst).1
          have sameRest := inductionHypothesis ordered.of_cons orderedToo.of_cons fun text => by
            have sameHere := same text
            by_cases isText : label item = text
            · rw [List.filter_cons_of_pos (by simpa using isText),
                List.filter_cons_of_pos (by simpa using isText)] at sameHere
              exact (List.cons.inj sameHere).2
            · rwa [List.filter_cons_of_neg (by simpa using isText),
                List.filter_cons_of_neg (by simpa using isText)] at sameHere
          rw [sameRest]

theorem isStableSort_mergeSort (label : α → String) (items : List α) :
    IsStableSort label items
      (items.mergeSort fun item other => decide (label item ≤ label other)) :=
  ⟨List.mergeSort_perm _ _, ordered_mergeSort label items, filter_mergeSort label items⟩

/-- Items are sorted by laying them out label by label. -/
theorem flatMap_filter_eq_mergeSort {labels : List String} (isSorted : labels.Pairwise (· < ·))
    (covers : ∀ item ∈ items, label item ∈ labels) :
    (labels.flatMap fun text => items.filter (label · == text)) =
      items.mergeSort fun item other => decide (label item ≤ label other) := by
  apply eq_of_filter_eq _ (ordered_mergeSort label items)
  · intro text
    rw [filter_mergeSort]
    by_cases isLabel : text ∈ labels
    · have distinct : (labels.map id).Nodup := by
        rw [List.map_id]
        exact isSorted.imp fun isLess => String.ne_of_lt isLess
      exact filter_label_flatMap distinct isLabel fun _ _ _ => label_of_mem_filter
    · have noItem : ∀ item ∈ items, ¬(label item == text) = true := by
        intro item isItem isText
        rw [beq_iff_eq] at isText
        exact isLabel (isText ▸ covers item isItem)
      rw [List.filter_eq_nil_iff.mpr noItem]
      apply List.filter_eq_nil_iff.mpr
      intro item isItem
      rcases List.mem_flatMap.mp isItem with ⟨_, _, isItem⟩
      exact noItem item (List.mem_filter.mp isItem).1
  · apply List.pairwise_flatMap.mpr
    refine ⟨fun text _ => ordered_filter label items text, isSorted.imp ?_⟩
    intro text other isLess item isItem next isNext
    rw [label_of_mem_filter isItem, label_of_mem_filter isNext]
    exact Std.le_of_lt isLess

end DeclIndex.Sequence
