/-
  When two JSON values are equal.

  Numbers are equal by value, whether they are written as integers or with a fraction; objects are
  equal whatever the order of their members, at every depth.  `sameOrder` is what is left: two equal
  values that have their members in the same order, and their numbers written alike, are one and the
  same (`eq_iff_sameOrder`).

  An object is a list of members here; that no key occurs twice is `distinct`.
-/
import FavlGateway.Library.JsonText
import Mathlib.Data.List.Perm.Subperm

namespace FavlGateway.Library

/-! ## Equality -/

/-- The mathematical value of a number that has one. -/
def Number.value? : Number → Option ℚ
  | int n => some n
  | float q => some q
  | negZero => some 0
  | nan => none
  | inf _ => none

/-- Numbers are equal if their values are; what is no number in JSON equals itself only. -/
def Number.equal (m n : Number) : Bool :=
  match m.value?, n.value? with
  | some a, some b => a = b
  | _, _ => m = n

theorem Number.equal_refl (n : Number) : n.equal n = true := by
  unfold Number.equal
  cases n.value? with
  | none => exact decide_eq_true rfl
  | some a => exact decide_eq_true rfl

namespace Json

variable {σ : Type} [DecidableEq σ]

mutual

/-- The values are equal: objects without regard to the order of their members. -/
def equal : Json σ → Json σ → Bool
  | null, null => true
  | bool a, bool b => a = b
  | number m, number n => m.equal n
  | str s, str t => s = t
  | arr xs, arr ys => equalList xs ys
  | obj ms, obj ns => ms.length = ns.length && equalMembers ms ns
  | _, _ => false

def equalList : List (Json σ) → List (Json σ) → Bool
  | [], [] => true
  | x :: xs, y :: ys => x.equal y && equalList xs ys
  | _, _ => false

/-- Each member is equal to the other object's of the same name. -/
def equalMembers : List (σ × Json σ) → List (σ × Json σ) → Bool
  | [], _ => true
  | (k, x) :: ms, ns =>
    (match ns.lookup k with
      | some y => x.equal y
      | none => false) && equalMembers ms ns

end

mutual

/-- Where both have an object, its members are in the same order, and where both have a number, it is
    written alike. -/
def sameOrder : Json σ → Json σ → Bool
  | number m, number n => m = n
  | arr xs, arr ys => sameOrderList xs ys
  | obj ms, obj ns => sameOrderMembers ms ns
  | _, _ => true

def sameOrderList : List (Json σ) → List (Json σ) → Bool
  | x :: xs, y :: ys => x.sameOrder y && sameOrderList xs ys
  | _, _ => true

def sameOrderMembers : List (σ × Json σ) → List (σ × Json σ) → Bool
  | (k, x) :: ms, (l, y) :: ns => k = l && x.sameOrder y && sameOrderMembers ms ns
  | _, _ => true

end

/-- What two objects have in common is in the same order, below their own members. -/
def sameBelow (ms ns : List (σ × Json σ)) : Bool :=
  ms.all fun m => match ns.lookup m.1 with
    | some y => m.2.sameOrder y
    | none => true

mutual

/-- No object has a key twice. -/
def distinct : Json σ → Bool
  | arr xs => distinctList xs
  | obj ms => decide (ms.map Prod.fst).Nodup && distinctMembers ms
  | _ => true

def distinctList : List (Json σ) → Bool
  | [] => true
  | x :: xs => x.distinct && distinctList xs

def distinctMembers : List (σ × Json σ) → Bool
  | [] => true
  | (_, x) :: ms => x.distinct && distinctMembers ms

end

/-! ## Lookups -/

theorem lookup_of_mem {ms : List (σ × Json σ)} (h : (ms.map Prod.fst).Nodup) {k : σ} {x : Json σ}
    (hmem : (k, x) ∈ ms) : ms.lookup k = some x := by
  induction ms with
  | nil => cases hmem
  | cons m ms ih =>
    obtain ⟨l, y⟩ := m
    rw [List.map_cons, List.nodup_cons] at h
    rcases List.mem_cons.mp hmem with heq | hmem
    · cases heq
      simp
    · have hne : (k == l) = false := by
        rw [beq_eq_false_iff_ne]
        intro heq
        rw [← heq] at h
        exact h.1 (List.mem_map.mpr ⟨_, hmem, rfl⟩)
      rw [List.lookup_cons, hne]
      exact ih h.2 hmem

theorem mem_of_lookup {ms : List (σ × Json σ)} {k : σ} {x : Json σ} (h : ms.lookup k = some x) :
    (k, x) ∈ ms := by
  obtain ⟨before, after, heq, -⟩ := List.lookup_eq_some_iff.mp h
  rw [heq]
  simp

theorem equalMembers_iff {ms ns : List (σ × Json σ)} : equalMembers ms ns = true ↔
    ∀ m ∈ ms, ∃ y, ns.lookup m.1 = some y ∧ m.2.equal y = true := by
  induction ms with
  | nil => simp [equalMembers]
  | cons m ms ih =>
    obtain ⟨k, x⟩ := m
    rw [equalMembers, Bool.and_eq_true, ih, List.forall_mem_cons]
    cases ns.lookup k with
    | none => simp
    | some y => simp

theorem distinctMembers_iff {ms : List (σ × Json σ)} :
    distinctMembers ms = true ↔ ∀ m ∈ ms, m.2.distinct = true := by
  induction ms with
  | nil => simp [distinctMembers]
  | cons m ms ih =>
    obtain ⟨k, x⟩ := m
    rw [distinctMembers, Bool.and_eq_true, ih, List.forall_mem_cons]

theorem distinct_obj_iff {ms : List (σ × Json σ)} : (obj ms).distinct = true ↔
    (ms.map Prod.fst).Nodup ∧ ∀ m ∈ ms, m.2.distinct = true := by
  rw [distinct, Bool.and_eq_true, decide_eq_true_eq, distinctMembers_iff]

/-! ## Order -/

mutual

theorem sameOrder_refl : ∀ x : Json σ, x.sameOrder x = true
  | null => rfl
  | bool _ => rfl
  | number _ => decide_eq_true rfl
  | str _ => rfl
  | arr xs => sameOrderList_refl xs
  | obj ms => sameOrderMembers_refl ms

theorem sameOrderList_refl : ∀ xs : List (Json σ), sameOrderList xs xs = true
  | [] => rfl
  | x :: xs => by rw [sameOrderList, sameOrder_refl x, sameOrderList_refl xs, Bool.and_self]

theorem sameOrderMembers_refl : ∀ ms : List (σ × Json σ), sameOrderMembers ms ms = true
  | [] => rfl
  | (k, x) :: ms => by
    rw [sameOrderMembers, sameOrder_refl x, sameOrderMembers_refl ms, decide_eq_true rfl]
    rfl

end

mutual

/-- By induction on the value; for objects, `equal_refl` holds of each member's value. -/
theorem equal_refl : ∀ {x : Json σ}, x.distinct = true → x.equal x = true
  | null, _ => rfl
  | bool _, _ => decide_eq_true rfl
  | number n, _ => n.equal_refl
  | str _, _ => decide_eq_true rfl
  | arr xs, h => equalList_refl (show distinctList xs = true from h)
  | obj ms, h => by
    obtain ⟨hkeys, hvalues⟩ := distinct_obj_iff.mp h
    rw [equal, Bool.and_eq_true, equalMembers_iff]
    refine ⟨decide_eq_true rfl, fun m hm => ⟨m.2, lookup_of_mem hkeys hm, ?_⟩⟩
    exact equal_refl_members (distinctMembers_iff.mpr hvalues) m hm

theorem equalList_refl : ∀ {xs : List (Json σ)}, distinctList xs = true → equalList xs xs = true
  | [], _ => rfl
  | x :: xs, h => by
    rw [distinctList, Bool.and_eq_true] at h
    rw [equalList, equal_refl h.1, equalList_refl h.2, Bool.and_self]

theorem equal_refl_members : ∀ {ms : List (σ × Json σ)}, distinctMembers ms = true →
    ∀ m ∈ ms, m.2.equal m.2 = true
  | [], _, _, hm => by cases hm
  | (k, x) :: ms, h, m, hm => by
    rw [distinctMembers, Bool.and_eq_true] at h
    rcases List.mem_cons.mp hm with rfl | hm
    · exact equal_refl h.1
    · exact equal_refl_members h.2 m hm

end

mutual

/-- Equal values in the same order are one and the same. -/
theorem eq_of_equal : ∀ {x y : Json σ}, x.distinct = true → y.distinct = true →
    x.equal y = true → x.sameOrder y = true → x = y
  | null, null, _, _, _, _ => rfl
  | bool a, bool b, _, _, h, _ => congrArg bool (of_decide_eq_true h)
  | number m, number n, _, _, _, h => congrArg number (of_decide_eq_true h)
  | str s, str t, _, _, h, _ => congrArg str (of_decide_eq_true h)
  | arr xs, arr ys, hx, hy, h, horder =>
    congrArg arr (eq_of_equalList (show distinctList xs = true from hx)
      (show distinctList ys = true from hy) h horder)
  | obj ms, obj ns, hx, hy, h, horder => by
    obtain ⟨hkeys, hvalues⟩ := distinct_obj_iff.mp hx
    obtain ⟨hkeys', hvalues'⟩ := distinct_obj_iff.mp hy
    rw [equal, Bool.and_eq_true, decide_eq_true_eq, equalMembers_iff] at h
    refine congrArg obj (eq_of_equalMembers h.1 (distinctMembers_iff.mpr hvalues)
      (distinctMembers_iff.mpr hvalues') ?_ horder)
    intro k x y hxmem hymem
    obtain ⟨y', hlookup, hequal⟩ := h.2 (k, x) hxmem
    rw [lookup_of_mem hkeys' hymem] at hlookup
    cases hlookup
    exact hequal

theorem eq_of_equalList : ∀ {xs ys : List (Json σ)}, distinctList xs = true →
    distinctList ys = true → equalList xs ys = true → sameOrderList xs ys = true → xs = ys
  | [], [], _, _, _, _ => rfl
  | x :: xs, y :: ys, hx, hy, h, horder => by
    rw [distinctList, Bool.and_eq_true] at hx hy
    rw [equalList, Bool.and_eq_true] at h
    rw [sameOrderList, Bool.and_eq_true] at horder
    rw [eq_of_equal hx.1 hy.1 h.1 horder.1, eq_of_equalList hx.2 hy.2 h.2 horder.2]

/-- Members in the same order, of which those of one name are equal. -/
theorem eq_of_equalMembers : ∀ {ms ns : List (σ × Json σ)}, ms.length = ns.length →
    distinctMembers ms = true → distinctMembers ns = true →
    (∀ k x y, (k, x) ∈ ms → (k, y) ∈ ns → x.equal y = true) →
    sameOrderMembers ms ns = true → ms = ns
  | [], [], _, _, _, _, _ => rfl
  | (k, x) :: ms, (l, y) :: ns, hlength, hx, hy, h, horder => by
    rw [distinctMembers, Bool.and_eq_true] at hx hy
    rw [sameOrderMembers, Bool.and_eq_true, Bool.and_eq_true, decide_eq_true_eq] at horder
    obtain ⟨⟨rfl, hvalue⟩, hrest⟩ := horder
    have hequal : x.equal y = true := h k x y (List.mem_cons_self ..) (List.mem_cons_self ..)
    rw [eq_of_equal hx.1 hy.1 hequal hvalue, eq_of_equalMembers (Nat.succ.inj hlength) hx.2 hy.2
      (fun k x y hxmem hymem => h k x y (List.mem_cons_of_mem _ hxmem)
        (List.mem_cons_of_mem _ hymem)) hrest]

end

/-- **Between equal values only order makes a difference.** -/
theorem eq_iff_sameOrder {x y : Json σ} (hx : x.distinct = true) (hy : y.distinct = true)
    (h : x.equal y = true) : x = y ↔ x.sameOrder y = true := by
  constructor
  · rintro rfl
    exact sameOrder_refl x
  · exact eq_of_equal hx hy h

/-! ## Objects -/

section Objects

variable {ms ns : List (σ × Json σ)}

/-- The order of an object's own members makes no difference. -/
theorem equal_of_perm (hms : (obj ms).distinct = true) (h : ms.Perm ns) :
    (obj ms).equal (obj ns) = true := by
  obtain ⟨hkeys, hvalues⟩ := distinct_obj_iff.mp hms
  have hkeys' : (ns.map Prod.fst).Nodup := (h.map Prod.fst).nodup_iff.mp hkeys
  rw [equal, Bool.and_eq_true, equalMembers_iff]
  refine ⟨decide_eq_true h.length_eq, fun m hm => ⟨m.2, ?_, equal_refl (hvalues m hm)⟩⟩
  exact lookup_of_mem hkeys' (h.mem_iff.mp hm)

/-- **Of two equal objects**: they have the same members, in whatever order, exactly when below their
    own members everything is in the same order. -/
theorem perm_iff_sameBelow (hms : (obj ms).distinct = true) (hns : (obj ns).distinct = true)
    (h : (obj ms).equal (obj ns) = true) : ms.Perm ns ↔ sameBelow ms ns = true := by
  obtain ⟨hkeys, hvalues⟩ := distinct_obj_iff.mp hms
  obtain ⟨hkeys', hvalues'⟩ := distinct_obj_iff.mp hns
  rw [equal, Bool.and_eq_true, decide_eq_true_eq, equalMembers_iff] at h
  rw [sameBelow, List.all_eq_true]
  constructor
  · intro hperm m hm
    rw [lookup_of_mem hkeys' (hperm.mem_iff.mp hm)]
    exact sameOrder_refl m.2
  · intro hbelow
    have hsubset : ms ⊆ ns := by
      intro m hm
      obtain ⟨y, hlookup, hequal⟩ := h.2 m hm
      have horder := hbelow m hm
      simp only [hlookup] at horder
      have hy : y.distinct = true := hvalues' _ (mem_of_lookup hlookup)
      have heq : m.2 = y := (eq_iff_sameOrder (hvalues m hm) hy hequal).mpr horder
      rw [← heq] at hlookup
      exact mem_of_lookup hlookup
    exact (List.subperm_of_subset hkeys.of_map hsubset).perm_of_length_le h.1.ge

end Objects

/-! ## Values that can be read back -/

mutual

theorem distinct_of_plain {repr : ℚ → String} :
    ∀ {x : Json String}, x.plain repr = true → x.distinct = true
  | null, _ => rfl
  | bool _, _ => rfl
  | number _, _ => rfl
  | str _, _ => rfl
  | arr xs, h => distinctList_of_plain (show plainList repr xs = true from h)
  | obj ms, h => by
    rw [plain, Bool.and_eq_true] at h
    rw [distinct, Bool.and_eq_true]
    exact ⟨h.1, distinctMembers_of_plain h.2⟩

theorem distinctList_of_plain {repr : ℚ → String} :
    ∀ {xs : List (Json String)}, plainList repr xs = true → distinctList xs = true
  | [], _ => rfl
  | x :: xs, h => by
    rw [plainList, Bool.and_eq_true] at h
    rw [distinctList, Bool.and_eq_true]
    exact ⟨distinct_of_plain h.1, distinctList_of_plain h.2⟩

theorem distinctMembers_of_plain {repr : ℚ → String} :
    ∀ {ms : List (String × Json String)}, plainMembers repr ms = true → distinctMembers ms = true
  | [], _ => rfl
  | (_, x) :: ms, h => by
    rw [plainMembers, Bool.and_eq_true] at h
    rw [distinctMembers, Bool.and_eq_true]
    exact ⟨distinct_of_plain h.1, distinctMembers_of_plain h.2⟩

end

end Json

end FavlGateway.Library
