import Mathlib.Data.Rat.Defs
import Mathlib.Algebra.Order.Ring.Rat
import Mathlib.Data.List.Forall2
import Mathlib.Order.WithBot
import Mutgos.DbTypes.DocumentProperty
import Mutgos.DbTypes.Id

/-!
# The values of properties

`dbtype::PropertyData` and its subclasses: a string, a number, a boolean, an ID, a
document, or a set of values of one type, which can be sets and documents in their
turn.  A set keeps its items in the order of `operator<`, and copying a set inserts
its items into a new one.  For documents and for sets `operator<` is no order: each
of two can be less than the other.  A set of these need not be equal to its copy.

## Main results

* `clone_eq_self` — a settled value is its own copy.
-/

namespace Mutgos.DbTypes

open Text List

/-- `dbtype::PropertyDataType`, without `PROPERTYDATATYPE_invalid` and the marker for its end. -/
inductive PropertyDataType where
  | string | integer | float | boolean | id | document | set
  deriving DecidableEq, Repr

/-- The number of the type; a set without items has the invalid type, with the number 0. -/
def PropertyDataType.index : PropertyDataType → ℕ
  | string => 1
  | integer => 2
  | float => 3
  | boolean => 4
  | id => 5
  | document => 6
  | set => 7

/-- A floating point number, as far as it is compared: an infinity or another number, or
`nan`. -/
inductive FloatData where
  | nan
  | number (x : WithBot (WithTop ℚ))
  deriving DecidableEq

/-- `==` of floating point numbers -/
def FloatData.eq : FloatData → FloatData → Bool
  | number x, number y => x = y
  | _, _ => false

theorem FloatData.eq_of_eq {f f' : FloatData} (h : f.eq f' = true) : f = f' := by
  cases f <;> cases f' <;> simp_all [FloatData.eq]

/-- `<` of floating point numbers -/
def FloatData.lt : FloatData → FloatData → Bool
  | number x, number y => x < y
  | _, _ => false

/-- `dbtype::PropertyData`.  The items of a set are in the order in which they are visited. -/
inductive PropertyData where
  | string (stringData : ByteString)
  | integer (intData : ℤ)
  | float (floatData : FloatData)
  | boolean (boolData : Bool)
  | id (idData : Id)
  | document (document : DocumentProperty)
  | set (propertyDataSetType : Option PropertyDataType) (propertyDataSet : List PropertyData)

namespace PropertyData

/-- `get_data_type` -/
def dataType : PropertyData → PropertyDataType
  | string _ => .string
  | integer _ => .integer
  | float _ => .float
  | boolean _ => .boolean
  | id _ => .id
  | document _ => .document
  | set _ _ => .set

/-- The loop of `operator<` over two documents. -/
def anyLineLt : List ByteString → List ByteString → Bool
  | line :: lines, line' :: lines' => line < line' || anyLineLt lines lines'
  | _, _ => false

mutual

/-- `operator==` of two objects -/
def eq : PropertyData → PropertyData → Bool
  | string s, string s' => s = s'
  | integer i, integer i' => i = i'
  | float f, float f' => f.eq f'
  | boolean b, boolean b' => b = b'
  | id i, id i' => i = i'
  | document d, document d' => d.documentData = d'.documentData
  | set type items, set type' items' => type = type' && eqItems items items'
  | _, _ => false

/-- The loop of `operator==` over two sets. -/
def eqItems : List PropertyData → List PropertyData → Bool
  | [], [] => true
  | a :: as, b :: bs => eq a b && eqItems as bs
  | _, _ => false

end

mutual

/-- `operator<` of two objects.  Sets are compared by the type of their items, then by their
sizes, and then it is enough that one item is less than the one at its place. -/
def lt : PropertyData → PropertyData → Bool
  | string s, string s' => s < s'
  | integer i, integer i' => i < i'
  | float f, float f' => f.lt f'
  | boolean b, boolean b' => b < b'
  | id i, id i' => i < i'
  | document d, document d' =>
    anyLineLt d.documentData d'.documentData || d.documentData.length < d'.documentData.length
  | set type items, set type' items' =>
    type.elim 0 PropertyDataType.index < type'.elim 0 PropertyDataType.index ||
      items.length < items'.length ||
        (items.length = items'.length && anyItemLt items items')
  | a, b => a.dataType.index < b.dataType.index

/-- The loop of `operator<` over two sets. -/
def anyItemLt : List PropertyData → List PropertyData → Bool
  | a :: as, b :: bs => lt a b || anyItemLt as bs
  | _, _ => false

end

/-- `std::set::insert`: what is equivalent to an item is not inserted.  (Where `operator<` is no
order, where a new item comes is not specified.) -/
def insertItem (item : PropertyData) : List PropertyData → List PropertyData
  | [] => [item]
  | a :: as =>
    if item.lt a then item :: a :: as
    else if a.lt item then a :: insertItem item as
    else a :: as

mutual

def clone : PropertyData → PropertyData
  | set type items => set type (cloneItems items [])
  | data => data

/-- The loop of the copy constructor of a set, with the items that have been inserted. -/
def cloneItems : List PropertyData → List PropertyData → List PropertyData
  | [], copied => copied
  | a :: as, copied => cloneItems as (insertItem a.clone copied)

end

/-- `SetProperty::add` of a set, with the limit for items -/
def add (limitsPropertySetItems : ℕ) : PropertyData → PropertyData → Bool × PropertyData
  | set none items, item => (true, set (some item.dataType) (insertItem item.clone items))
  | set (some type) items, item =>
    if type ≠ item.dataType then (false, set (some type) items)
    else if limitsPropertySetItems < items.length then (false, set (some type) items)
    else (true, set (some type) (insertItem item.clone items))
  | data, _ => (false, data)

mutual

/-- In every set the items are in an order. -/
def settled : PropertyData → Bool
  | set _ items => settledItems items && items.Pairwise fun a b => a.lt b && !b.lt a
  | _ => true

/-- All of these are settled. -/
def settledItems : List PropertyData → Bool
  | [] => true
  | a :: as => settled a && settledItems as

end

example : (integer 0).lt (integer 1) = true := by simp [lt]

example : (set none []).eq (set none []) = true := by simp [eq, eqItems]

example : (set none []).clone.settled = true := by simp [clone, cloneItems, settled, settledItems]

/-- Equality of values.  Sets are equal that have items of the same type, and the same items. -/
inductive Same : PropertyData → PropertyData → Prop
  | string (s : ByteString) : Same (string s) (string s)
  | integer (i : ℤ) : Same (integer i) (integer i)
  | float {f f' : FloatData} (h : f.eq f' = true) : Same (float f) (float f')
  | boolean (b : Bool) : Same (boolean b) (boolean b)
  | id (i : Id) : Same (id i) (id i)
  | document {d d' : DocumentProperty} (h : d.documentData = d'.documentData) :
    Same (document d) (document d')
  | set (type : Option PropertyDataType) {items items' : List PropertyData}
    (forth back : PropertyData → PropertyData) (hforth : ∀ a ∈ items, forth a ∈ items')
    (hsame : ∀ a ∈ items, Same a (forth a)) (hback : ∀ b ∈ items', back b ∈ items)
    (hsame' : ∀ b ∈ items', Same (back b) b) :
    Same (set type items) (set type items')

variable {type : Option PropertyDataType} {items' : List PropertyData} {a b : PropertyData}

theorem same_set_iff {type' : Option PropertyDataType} {items : List PropertyData} :
    Same (set type items) (set type' items') ↔
      type = type' ∧ (∀ a ∈ items, ∃ b ∈ items', Same a b) ∧
        ∀ b ∈ items', ∃ a ∈ items, Same a b := by
  constructor
  · intro h
    cases h with
    | set _ forth back hforth hsame hback hsame' =>
      exact ⟨rfl, fun a ha => ⟨forth a, hforth a ha, hsame a ha⟩,
        fun b hb => ⟨back b, hback b hb, hsame' b hb⟩⟩
  · rintro ⟨rfl, hforth, hback⟩
    choose! forth hforth hsame using hforth
    choose! back hback hsame' using hback
    exact .set type forth back hforth hsame hback hsame'

/-! ### Comparing -/

mutual

/-- Sets are made of values that have been made before. -/
@[elab_as_elim]
theorem set_induction {P : PropertyData → Prop} (simple : ∀ a, a.dataType ≠ .set → P a)
    (set : ∀ type items, (∀ a ∈ items, P a) → P (.set type items)) : ∀ a, P a
  | .string s => simple (.string s) (by simp [dataType])
  | .integer i => simple (.integer i) (by simp [dataType])
  | .float f => simple (.float f) (by simp [dataType])
  | .boolean b => simple (.boolean b) (by simp [dataType])
  | .id i => simple (.id i) (by simp [dataType])
  | .document d => simple (.document d) (by simp [dataType])
  | .set type items => set type items (set_induction_items simple set items)

theorem set_induction_items {P : PropertyData → Prop} (simple : ∀ a, a.dataType ≠ .set → P a)
    (set : ∀ type items, (∀ a ∈ items, P a) → P (.set type items)) :
    ∀ items : List PropertyData, ∀ a ∈ items, P a
  | [] => by simp
  | a :: items => forall_mem_cons.mpr
    ⟨set_induction simple set a, set_induction_items simple set items⟩

end

theorem dataType_eq_of_eq (h : a.eq b = true) : a.dataType = b.dataType := by
  cases a <;> cases b <;> simp_all [eq, dataType]

/-- Objects of different types are compared by their types. -/
theorem lt_of_dataType_ne (h : a.dataType ≠ b.dataType) :
    a.lt b = decide (a.dataType.index < b.dataType.index) := by
  cases a <;> cases b <;> simp_all [lt, dataType]

variable {as bs : List PropertyData} {c a' b' : PropertyData}

theorem eqItems_iff : eqItems as bs = true ↔ List.Forall₂ (fun a b => a.eq b = true) as bs := by
  induction as generalizing bs with
  | nil => cases bs <;> simp [eqItems]
  | cons a as ih => cases bs <;> simp [eqItems, ih]

/-- What is equal to a set is a set of equal items. -/
theorem exists_set_of_eq {items : List PropertyData} (h : (set type items).eq a = true) :
    ∃ items', a = set type items' ∧ List.Forall₂ (fun a b => a.eq b = true) items items' := by
  cases a with
  | set type' items' =>
    simp only [eq, Bool.and_eq_true, decide_eq_true_eq] at h
    exact ⟨items', by rw [h.1], eqItems_iff.mp h.2⟩
  | _ => simp [eq] at h

/-- Two sets of equal items. -/
theorem set_eq_set {items : List PropertyData}
    (h : List.Forall₂ (fun a b => a.eq b = true) items items') :
    (set type items).eq (set type items') = true := by
  simp only [eq, decide_true, Bool.true_and, eqItems_iff.mpr h]

theorem eq_symm (h : a.eq b = true) : b.eq a = true := by
  induction a using set_induction generalizing b with
  | simple a ha =>
    cases a <;> cases b <;> simp_all [eq, dataType]
    exact FloatData.eq_of_eq h ▸ h
  | set type items ih =>
    obtain ⟨items', rfl, hitems⟩ := exists_set_of_eq h
    refine set_eq_set ?_
    clear h
    induction hitems with
    | nil => exact .nil
    | cons hab _ ihrest =>
      rw [forall_mem_cons] at ih
      exact .cons (ih.1 hab) (ihrest ih.2)

theorem eq_trans (h : a.eq b = true) (h' : b.eq c = true) : a.eq c = true := by
  induction a using set_induction generalizing b c with
  | simple a ha =>
    cases a <;> cases b <;> cases c <;> simp_all [eq, dataType]
    exact FloatData.eq_of_eq h' ▸ h
  | set type items ih =>
    obtain ⟨items', rfl, hitems⟩ := exists_set_of_eq h
    obtain ⟨items'', rfl, hitems'⟩ := exists_set_of_eq h'
    refine set_eq_set ?_
    clear h h'
    induction hitems generalizing items'' with
    | nil => exact hitems'
    | cons hab _ ihrest =>
      cases hitems' with
      | cons hbc hrest =>
        rw [forall_mem_cons] at ih
        exact .cons (ih.1 hab hbc) (ihrest ih.2 _ hrest)

theorem anyItemLt_congr {as' bs' : List PropertyData}
    (hcongr : ∀ a ∈ as, ∀ a' b b', a.eq a' = true → b.eq b' = true → a.lt b = a'.lt b')
    (ha : List.Forall₂ (fun a a' => a.eq a' = true) as as')
    (hb : List.Forall₂ (fun b b' => b.eq b' = true) bs bs') :
    anyItemLt as bs = anyItemLt as' bs' := by
  induction ha generalizing bs bs' with
  | nil => simp [anyItemLt]
  | cons haa' _ ih =>
    cases hb with
    | nil => simp [anyItemLt]
    | cons hbb' hrest =>
      rw [forall_mem_cons] at hcongr
      rw [anyItemLt, anyItemLt, hcongr.1 _ _ _ haa' hbb', ih hcongr.2 hrest]

theorem lt_congr_simple (ha : a.eq a' = true) (hb : b.eq b' = true) (hsimple : a.dataType ≠ .set)
    (htype : a.dataType = b.dataType) : a.lt b = a'.lt b' := by
  cases a <;> cases b <;> simp only [dataType, reduceCtorEq, ne_eq, not_true_eq_false] at * <;>
    cases a' <;> simp only [eq, decide_eq_true_eq, Bool.false_eq_true] at ha <;>
    cases b' <;> simp only [eq, decide_eq_true_eq, Bool.false_eq_true] at hb
  case float.float.float.float => rw [FloatData.eq_of_eq ha, FloatData.eq_of_eq hb]
  all_goals simp [lt, ha, hb]

/-- Equal objects are less than equal objects. -/
theorem lt_congr (ha : a.eq a' = true) (hb : b.eq b' = true) : a.lt b = a'.lt b' := by
  induction a using set_induction generalizing a' b b' with
  | simple a hsimple =>
    by_cases htype : a.dataType = b.dataType
    · exact lt_congr_simple ha hb hsimple htype
    · have hta := dataType_eq_of_eq ha
      have htb := dataType_eq_of_eq hb
      rw [lt_of_dataType_ne htype, lt_of_dataType_ne (hta ▸ htb ▸ htype), hta, htb]
  | set type items ih =>
    obtain ⟨items', rfl, hitems⟩ := exists_set_of_eq ha
    by_cases htype : (set type items).dataType = b.dataType
    · cases b with
      | set typeb itemsb =>
        obtain ⟨itemsb', rfl, hitemsb⟩ := exists_set_of_eq hb
        have hany := anyItemLt_congr (fun a ha a' b b' => ih a ha) hitems hitemsb
        rw [lt, lt, hitems.length_eq, hitemsb.length_eq, hany]
      | _ => simp [dataType] at htype
    · have htb := dataType_eq_of_eq hb
      rw [lt_of_dataType_ne htype, lt_of_dataType_ne (htb ▸ htype), htb]
      rfl

/-! ### Copies -/

theorem insertItem_of_forall_lt {item : PropertyData} {items : List PropertyData}
    (h : ∀ a ∈ items, a.lt item = true ∧ item.lt a = false) :
    insertItem item items = items ++ [item] := by
  induction items with
  | nil => rfl
  | cons a items ih =>
    obtain ⟨ha, hitems⟩ := forall_mem_cons.mp h
    rw [insertItem, if_neg (by simp [ha.2]), if_pos ha.1, ih hitems, cons_append]

theorem settledItems_iff {items : List PropertyData} :
    settledItems items = true ↔ ∀ a ∈ items, a.settled = true := by
  induction items with
  | nil => simp [settledItems]
  | cons a items ih => simp [settledItems, ih]

theorem settled_set_iff {items : List PropertyData} :
    (set type items).settled = true ↔ (∀ a ∈ items, a.settled = true) ∧
      items.Pairwise fun a b => a.lt b = true ∧ b.lt a = false := by
  simp [settled, settledItems_iff]

theorem cloneItems_eq {items copied : List PropertyData} (hclone : ∀ a ∈ items, a.clone = a)
    (horder : (copied ++ items).Pairwise fun a b => a.lt b = true ∧ b.lt a = false) :
    cloneItems items copied = copied ++ items := by
  induction items generalizing copied with
  | nil => simp [cloneItems]
  | cons a items ih =>
    obtain ⟨ha, hitems⟩ := forall_mem_cons.mp hclone
    have hbefore : ∀ b ∈ copied, b.lt a = true ∧ a.lt b = false := by
      intro b hb
      exact (pairwise_append.mp horder).2.2 b hb a mem_cons_self
    rw [cloneItems, ha, insertItem_of_forall_lt hbefore, ih hitems (by simpa using horder)]
    simp

/-- **A settled value is its own copy.** -/
theorem clone_eq_self (h : a.settled = true) : a.clone = a := by
  induction a using set_induction with
  | simple a ha => cases a <;> simp_all [clone, dataType]
  | set type items ih =>
    obtain ⟨hitems, horder⟩ := settled_set_iff.mp h
    rw [clone, cloneItems_eq (fun a ha => ih a ha (hitems a ha)) (by simpa using horder)]
    rfl

/-! ### Equality of values -/

/-- Of two items in an order, at most one is equal to the same value. -/
theorem not_eq_of_lt (h : a.lt b = true ∧ b.lt a = false) (ha : a.eq c = true) :
    ¬ b.eq c = true := by
  intro hb
  have hforth := lt_congr ha hb
  have hback := lt_congr hb ha
  rw [h.1] at hforth
  rw [h.2, ← hforth] at hback
  simp at hback

/-- The same items in an order are in the same order. -/
theorem forall₂_eq_of_same_items {items : List PropertyData}
    (horder : items.Pairwise fun a b => a.lt b = true ∧ b.lt a = false)
    (horder' : items'.Pairwise fun a b => a.lt b = true ∧ b.lt a = false)
    (hforth : ∀ a ∈ items, ∃ b ∈ items', a.eq b = true)
    (hback : ∀ b ∈ items', ∃ a ∈ items, a.eq b = true) :
    List.Forall₂ (fun a b => a.eq b = true) items items' := by
  induction items generalizing items' with
  | nil =>
    cases items' with
    | nil => exact .nil
    | cons b items' =>
      obtain ⟨a, ha, -⟩ := hback b mem_cons_self
      simp at ha
  | cons a items ih =>
    cases items' with
    | nil =>
      obtain ⟨b, hb, -⟩ := hforth a mem_cons_self
      simp at hb
    | cons b items' =>
      obtain ⟨hfirst, horder⟩ := pairwise_cons.mp horder
      obtain ⟨hfirst', horder'⟩ := pairwise_cons.mp horder'
      have hab : a.eq b = true := by
        obtain ⟨b₁, hb₁, hab₁⟩ := hforth a mem_cons_self
        obtain ⟨a₁, ha₁, ha₁b⟩ := hback b mem_cons_self
        rcases mem_cons.mp hb₁ with rfl | hb₁
        · exact hab₁
        rcases mem_cons.mp ha₁ with rfl | ha₁
        · exact ha₁b
        -- What is equal to `b` is behind `a`, and what is equal to `a` is behind `b`.
        have hlt := lt_congr ha₁b hab₁
        rw [(hfirst a₁ ha₁).2, (hfirst' b₁ hb₁).1] at hlt
        simp at hlt
      refine .cons hab (ih horder horder' ?_ ?_)
      · intro x hx
        obtain ⟨y, hy, hxy⟩ := hforth x (mem_cons_of_mem a hx)
        rcases mem_cons.mp hy with rfl | hy
        · exact absurd hxy (not_eq_of_lt (hfirst x hx) hab)
        · exact ⟨y, hy, hxy⟩
      · intro y hy
        obtain ⟨x, hx, hxy⟩ := hback y (mem_cons_of_mem b hy)
        rcases mem_cons.mp hx with rfl | hx
        · exact absurd (eq_symm hxy) (not_eq_of_lt (hfirst' y hy) (eq_symm hab))
        · exact ⟨x, hx, hxy⟩

theorem exists_right_of_forall₂ {α β : Type*} {R : α → β → Prop} {as : List α} {bs : List β}
    (h : List.Forall₂ R as bs) {a : α} (ha : a ∈ as) : ∃ b ∈ bs, R a b := by
  induction h with
  | nil => simp at ha
  | cons hab _ ih =>
    rcases mem_cons.mp ha with rfl | ha
    · exact ⟨_, mem_cons_self, hab⟩
    · obtain ⟨b, hb, hab⟩ := ih ha
      exact ⟨b, mem_cons_of_mem _ hb, hab⟩

theorem eq_iff_same_simple (hsimple : a.dataType ≠ .set) : a.eq b = true ↔ Same a b := by
  constructor
  · intro h
    cases a <;> cases b <;> simp_all [eq, dataType]
    all_goals constructor
    all_goals assumption
  · rintro (_ | _ | hfloat | _ | _ | hdocument | _)
    all_goals simp_all [eq, dataType]

/-- **`operator==` is equality of settled values.** -/
theorem eq_iff_same (ha : a.settled = true) (hb : b.settled = true) : a.eq b = true ↔ Same a b := by
  induction a using set_induction generalizing b with
  | simple a hsimple => exact eq_iff_same_simple hsimple
  | set type items ih =>
    obtain ⟨hitems, horder⟩ := settled_set_iff.mp ha
    cases b with
    | set type' items' =>
      obtain ⟨hitems', horder'⟩ := settled_set_iff.mp hb
      have hsame : ∀ a ∈ items, ∀ b ∈ items', a.eq b = true ↔ Same a b :=
        fun a ha b hb => ih a ha (hitems a ha) (hitems' b hb)
      rw [same_set_iff]
      constructor
      · intro h
        simp only [eq, Bool.and_eq_true, decide_eq_true_eq, eqItems_iff] at h
        refine ⟨h.1, ?_, ?_⟩
        · intro a ha
          obtain ⟨b, hb, hab⟩ := exists_right_of_forall₂ h.2 ha
          exact ⟨b, hb, (hsame a ha b hb).mp hab⟩
        · intro b hb
          obtain ⟨a, ha, hab⟩ := exists_right_of_forall₂ h.2.flip hb
          exact ⟨a, ha, (hsame a ha b hb).mp hab⟩
      · rintro ⟨rfl, hforth, hback⟩
        refine set_eq_set (forall₂_eq_of_same_items horder horder' ?_ ?_)
        · intro a ha
          obtain ⟨b, hb, hab⟩ := hforth a ha
          exact ⟨b, hb, (hsame a ha b hb).mpr hab⟩
        · intro b hb
          obtain ⟨a, ha, hab⟩ := hback b hb
          exact ⟨a, ha, (hsame a ha b hb).mpr hab⟩
    | _ =>
      refine iff_of_false (by simp [eq]) ?_
      rintro ⟨⟩

end PropertyData

end Mutgos.DbTypes
