import Mathlib.Data.List.Perm.Subperm
import Scriptlet.Proofs.Record
import Scriptlet.Value.Equality

/-!
# Equality is lawful

**Theorem (`Value.equal_lawful`).** Among values whose objects were built by writing properties, equality
is symmetric and transitive, everything but the number not-a-number equals itself, and two objects are
equal exactly when they are the same allocation or have the same keys with equal values under each.

**Memory.** `memory i` is the sequence of properties that were written into the allocation `i`, in
order and with repetitions. A value is `Built` from it if each object in it, at any depth, holds what
writing that sequence gives. So two objects of one identity have the same properties.

**One direction is enough.** Equality of objects compares their lengths and looks for the properties of
one of them in the other. Writing keeps keys distinct, so keys that all occur among as few others are
all of them.

**The shortcut.** An object that holds not-a-number equals itself and no copy. In a chain of two
equalities, one that holds by identity is between the same properties, so the other one decides.
-/

namespace Scriptlet

/-! ## Counting names -/

namespace Record

variable {α : Type} {record others : Record α} {key : String}

/-- Distinct names that all occur among no more others are the same names. -/
theorem mem_names_of_length_le (hnodup : (names record).Nodup) (hsubset : names record ⊆ names others)
    (hlength : others.length ≤ record.length) : key ∈ names record ↔ key ∈ names others := by
  have hnames : (names others).length ≤ (names record).length := by simpa [names] using hlength
  exact ((List.subperm_of_subset hnodup hsubset).perm_of_length_le hnames).mem_iff

theorem length_eq_of_mem_names (hrecord : (names record).Nodup) (hothers : (names others).Nodup)
    (h : ∀ key, key ∈ names record ↔ key ∈ names others) : record.length = others.length := by
  have hnames := ((List.perm_ext_iff_of_nodup hrecord hothers).mpr h).length_eq
  simpa [names] using hnames

end Record

/-! ## Numbers -/

theorem Double.equal_iff {x y : Double} :
    x.equal y = true ↔ ∃ place, x.position? = some place ∧ y.position? = some place := by
  unfold equal compareWith
  cases x.position? with
  | none => simp
  | some place =>
    cases y.position? with
    | none => simp
    | some other => simpa using eq_comm

theorem Double.position?_eq_none_iff {x : Double} : x.position? = none ↔ x = .nan := by
  cases x <;> simp [position?]

namespace Number

variable {m n k : Number}

theorem equal_iff : m.equal n = true ↔ m.value.equal n.value = true ∧ m.isFloat = n.isFloat := by
  simp [equal]

theorem equal_symm (h : m.equal n = true) : n.equal m = true := by
  rw [equal_iff, Double.equal_iff] at h ⊢
  obtain ⟨⟨place, hm, hn⟩, hmark⟩ := h
  exact ⟨⟨place, hn, hm⟩, hmark.symm⟩

theorem equal_trans (hmn : m.equal n = true) (hnk : n.equal k = true) : m.equal k = true := by
  rw [equal_iff, Double.equal_iff] at hmn hnk ⊢
  obtain ⟨⟨place, hm, hn⟩, hmark⟩ := hmn
  obtain ⟨⟨other, hn', hk⟩, hmark'⟩ := hnk
  obtain rfl : place = other := Option.some.inj (hn.symm.trans hn')
  exact ⟨⟨place, hm, hk⟩, hmark.trans hmark'⟩

/-- A number equals itself unless it is not-a-number. -/
theorem equal_self_iff : n.equal n = true ↔ n.value ≠ .nan := by
  rw [equal_iff, Double.equal_iff, ne_eq, ← Double.position?_eq_none_iff]
  cases n.value.position? <;> simp

end Number

namespace Value

variable {memory : Nat → List (String × Value)} {a b c value : Value} {i j : Nat}
  {xs ys zs fields others : List (String × Value)}

/-! ## Values in memory -/

/-- Each object in the value, at any depth, was built by writing the properties that the memory keeps for
its allocation. -/
inductive Built (memory : Nat → List (String × Value)) : Value → Prop
  | plain {value : Value} (h : value.type ≠ .object) : Built memory value
  | object {i : Nat} (h : ∀ entry ∈ memory i, Built memory entry.2) :
      Built memory (.object i (Record.putAll [] (memory i)))

namespace Built

theorem fields_eq (h : Built memory (.object i xs)) : xs = Record.putAll [] (memory i) := by
  cases h with
  | plain h => exact absurd rfl h
  | object h => rfl

theorem nodup_names (h : Built memory (.object i xs)) : (Record.names xs).Nodup := by
  rw [h.fields_eq]
  exact Record.nodup_names_putAll _ List.nodup_nil

theorem of_get? (h : Built memory (.object i xs)) {key : String} (hvalue : Record.get? xs key = some value) :
    Built memory value := by
  cases h with
  | plain h => exact absurd rfl h
  | object h => exact h _ (Record.mem_of_get?_putAll hvalue)

/-- An allocation has one sequence of properties. -/
theorem fields_unique (hx : Built memory (.object i xs)) (hy : Built memory (.object i ys)) : xs = ys :=
  hx.fields_eq.trans hy.fields_eq.symm

end Built

/-! ## Objects -/

/-- The same keys, with equal values under each. -/
structure SameProperties (xs ys : List (String × Value)) : Prop where
  keys : ∀ key, key ∈ Record.names xs ↔ key ∈ Record.names ys
  values : ∀ key x y, Record.get? xs key = some x → Record.get? ys key = some y → x.equal y = true

theorem containedIn_iff :
    containedIn others fields = true ↔
      ∀ entry ∈ fields, ∃ other, Record.get? others entry.1 = some other ∧ entry.2.equal other = true := by
  induction fields with
  | nil => simp [containedIn]
  | cons entry rest ih =>
    unfold containedIn
    rw [Bool.and_eq_true, ih, List.forall_mem_cons]
    cases Record.get? others entry.1 <;> simp

theorem equal_object_iff :
    (object i xs).equal (object j ys) = true ↔
      i = j ∨ (xs.length = ys.length ∧ containedIn ys xs = true) := by
  simp [equal]

/-- **Equality of objects is identity, or the same keys with equal values under each.** -/
theorem equal_object_iff_sameProperties (hx : (Record.names xs).Nodup) (hy : (Record.names ys).Nodup) :
    (object i xs).equal (object j ys) = true ↔ i = j ∨ SameProperties xs ys := by
  rw [equal_object_iff, containedIn_iff]
  refine or_congr_right ⟨?_, ?_⟩
  · rintro ⟨hlength, hcontained⟩
    have hsubset : Record.names xs ⊆ Record.names ys := by
      intro key hkey
      obtain ⟨entry, hentry, rfl⟩ := List.mem_map.mp hkey
      obtain ⟨other, hother, -⟩ := hcontained entry hentry
      exact Record.mem_names_iff.mpr ⟨other, hother⟩
    refine ⟨fun key => Record.mem_names_of_length_le hx hsubset (Nat.le_of_eq hlength.symm), ?_⟩
    intro key x y hkeyx hkeyy
    obtain ⟨other, hother, hequal⟩ := hcontained _ (Record.mem_of_get?_eq_some hkeyx)
    obtain rfl : other = y := Option.some.inj (hother.symm.trans hkeyy)
    exact hequal
  · intro hsame
    refine ⟨Record.length_eq_of_mem_names hx hy hsame.keys, ?_⟩
    intro entry hentry
    have hkey := (hsame.keys entry.1).mp (List.mem_map_of_mem hentry)
    obtain ⟨other, hother⟩ := Record.mem_names_iff.mp hkey
    exact ⟨other, hother, hsame.values _ _ _ (Record.get?_of_mem hx hentry) hother⟩

theorem Built.equal_object_iff (hx : Built memory (.object i xs)) (hy : Built memory (.object j ys)) :
    (Value.object i xs).equal (.object j ys) = true ↔ i = j ∨ SameProperties xs ys :=
  equal_object_iff_sameProperties hx.nodup_names hy.nodup_names

/-- Only an object equals an object. -/
theorem exists_of_equal_object (h : (object i xs).equal b = true) : ∃ j ys, b = .object j ys := by
  cases b with
  | object j ys => exact ⟨j, ys, rfl⟩
  | _ => simp [equal] at h

/-! ## The laws -/

/-- Equality of values that are not objects is symmetric. -/
theorem equal_symm_of_plain (ha : a.type ≠ .object) (h : a.equal b = true) : b.equal a = true := by
  cases a with
  | object => exact absurd rfl ha
  | number m =>
    cases b with
    | number n => simpa [equal] using Number.equal_symm (by simpa [equal] using h)
    | _ => simp [equal] at h
  | _ => cases b <;> simp_all [equal]

theorem equal_trans_of_plain (ha : a.type ≠ .object) (hab : a.equal b = true) (hbc : b.equal c = true) :
    a.equal c = true := by
  cases a with
  | object => exact absurd rfl ha
  | number m =>
    cases b with
    | number n =>
      cases c with
      | number k =>
        rw [equal] at hab hbc ⊢
        exact Number.equal_trans hab hbc
      | _ => simp [equal] at hbc
    | _ => simp [equal] at hab
  | _ => cases b <;> cases c <;> simp_all [equal]

/-- **Equality is symmetric.** -/
theorem Built.equal_symm (ha : Built memory a) (hb : Built memory b) (h : a.equal b = true) :
    b.equal a = true := by
  induction ha generalizing b with
  | plain hplain => exact equal_symm_of_plain hplain h
  | object hentries ih =>
    have ha := Built.object hentries
    obtain ⟨j, ys, rfl⟩ := exists_of_equal_object h
    rw [hb.equal_object_iff ha]
    rcases (ha.equal_object_iff hb).mp h with hsame | hsame
    · exact .inl hsame.symm
    · refine .inr ⟨fun key => (hsame.keys key).symm, fun key y x hy hx => ?_⟩
      exact ih _ (Record.mem_of_get?_putAll hx) (hb.of_get? hy) (hsame.values key x y hx hy)

/-- **Equality is transitive.** -/
theorem Built.equal_trans (ha : Built memory a) (hb : Built memory b) (hc : Built memory c)
    (hab : a.equal b = true) (hbc : b.equal c = true) : a.equal c = true := by
  induction ha generalizing b c with
  | plain hplain => exact equal_trans_of_plain hplain hab hbc
  | object hentries ih =>
    have ha := Built.object hentries
    obtain ⟨j, ys, rfl⟩ := exists_of_equal_object hab
    obtain ⟨k, zs, rfl⟩ := exists_of_equal_object hbc
    rcases (ha.equal_object_iff hb).mp hab with rfl | hxy
    · -- The first two are one allocation, so the second equality is about the same properties.
      rwa [ha.fields_unique hb]
    · rcases (hb.equal_object_iff hc).mp hbc with rfl | hyz
      · rwa [← hb.fields_unique hc]
      · refine (ha.equal_object_iff hc).mpr (.inr ⟨fun key => (hxy.keys key).trans (hyz.keys key), ?_⟩)
        intro key x z hx hz
        have hkey := (hxy.keys key).mp (Record.mem_names_iff.mpr ⟨x, hx⟩)
        obtain ⟨y, hy⟩ := Record.mem_names_iff.mp hkey
        exact ih _ (Record.mem_of_get?_putAll hx) (hb.of_get? hy) (hc.of_get? hz) (hxy.values key x y hx hy)
          (hyz.values key y z hy hz)

/-- Only not-a-number differs from itself. -/
theorem equal_self_iff : a.equal a = true ↔ ∀ isFloat, a ≠ .number ⟨.nan, isFloat⟩ := by
  cases a with
  | number n =>
    rw [equal, Number.equal_self_iff]
    obtain ⟨value, isFloat⟩ := n
    simp
  | _ => simp [equal]

/-- **Equality is lawful**: symmetric, transitive, reflexive up to not-a-number, and for objects either
identity or the same keys with equal values under each. -/
theorem equal_lawful (memory : Nat → List (String × Value)) {a b c : Value} (ha : Built memory a)
    (hb : Built memory b) (hc : Built memory c) :
    (a.equal b = true → b.equal a = true) ∧
    (a.equal b = true → b.equal c = true → a.equal c = true) ∧
    (a.equal a = true ↔ ∀ isFloat, a ≠ .number ⟨.nan, isFloat⟩) ∧
    (∀ i j xs ys, a = .object i xs → b = .object j ys →
      (a.equal b = true ↔ i = j ∨ SameProperties xs ys)) := by
  refine ⟨ha.equal_symm hb, ha.equal_trans hb hc, equal_self_iff, ?_⟩
  rintro i j xs ys rfl rfl
  exact ha.equal_object_iff hb

/-- Three objects that share one with a not-a-number in it, built in different orders and one of them with
a property that is written over. -/
theorem equal_lawful_around_shared :
    let shared : Value := .object 0 [("rate", .number ⟨.nan, false⟩)]
    let memory : Nat → List (String × Value) := fun
      | 0 => [("rate", .number ⟨.nan, false⟩)]
      | 1 => [("name", .text "old"), ("inner", shared), ("name", .text "new")]
      | 2 => [("inner", shared), ("name", .text "new")]
      | 3 => [("name", .text "new"), ("inner", shared)]
      | _ => []
    let a : Value := .object 1 [("name", .text "new"), ("inner", shared)]
    let b : Value := .object 2 [("inner", shared), ("name", .text "new")]
    let c : Value := .object 3 [("name", .text "new"), ("inner", shared)]
    (Built memory a ∧ Built memory b ∧ Built memory c) ∧
    (a.equal b = true ∧ b.equal a = true) ∧ (b.equal c = true ∧ a.equal c = true) ∧
    a.equal a = true ∧
    SameProperties [("name", .text "new"), ("inner", shared)] [("inner", shared), ("name", .text "new")] := by
  intro shared memory a b c
  have htext : ∀ s, Built memory (.text s) := fun s => .plain (by simp [type])
  have hnan : Built memory (.number ⟨.nan, false⟩) := .plain (by simp [type])
  have hshared : Built memory shared := by
    refine .object (i := 0) ?_
    change ∀ entry ∈ [(_, _)], Built memory entry.2
    simp [hnan]
  have ha : Built memory a := by
    refine .object (i := 1) ?_
    change ∀ entry ∈ [(_, _), (_, _), (_, _)], Built memory entry.2
    simp [htext, hshared]
  have hb : Built memory b := by
    refine .object (i := 2) ?_
    change ∀ entry ∈ [(_, _), (_, _)], Built memory entry.2
    simp [htext, hshared]
  have hc : Built memory c := by
    refine .object (i := 3) ?_
    change ∀ entry ∈ [(_, _), (_, _)], Built memory entry.2
    simp [htext, hshared]
  have hab : a.equal b = true := by decide
  have hbc : b.equal c = true := by decide
  obtain ⟨hsymm, htrans, hself, hobjects⟩ := equal_lawful memory ha hb hc
  refine ⟨⟨ha, hb, hc⟩, ⟨hab, hsymm hab⟩, ⟨hbc, htrans hab hbc⟩, hself.mpr (by simp [a]), ?_⟩
  exact ((hobjects 1 2 _ _ rfl rfl).mp hab).resolve_left (by decide)

end Value

end Scriptlet
