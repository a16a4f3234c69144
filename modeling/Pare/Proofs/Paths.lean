import Pare.Path

/-!
**The order of paths.**

Reports and files come in the order of their paths, and that order goes by the parts of a path.  It
is the lexicographic order over an order of parts, which in turn goes by the form of a part first
and by its text second, so it is total and transitive; two paths are equal in it exactly if they
have the same parts.  Different strings may have the same parts, so only among paths with different
parts is the order of a list fixed by its members.

Main results:

* `Pare.Path.Part.compare_eq`, `Pare.Path.compareParts_eq` — the order as a lexicographic one;
* `Pare.Path.notAfter_trans`, `Pare.Path.notAfter_total` — the order is transitive and total;
* `Pare.Path.parts_eq_of_notAfter` — paths that come at one place have the same parts;
* `Pare.Path.compare_eq_lt` — a path comes before another one if it is not after it and has other
  parts;
* `Pare.Path.map_parts_eq` — a list of paths in strict order is known by what parts its members
  have.
-/

set_option relaxedAutoImplicit false
set_option autoImplicit false

namespace Pare

namespace Path

/-! ### Parts -/

/-- The text of a name. -/
def Part.text : Part → String
  | name text => text
  | _ => ""

/-- Parts are ordered by their form and then by their text. -/
theorem Part.compare_eq :
    Part.compare = compareLex (compareOn Part.rank) (compareOn Part.text) := by
  funext p q
  cases p <;> cases q <;> rfl

instance : Std.TransCmp Part.compare := by
  rw [Part.compare_eq]
  infer_instance

instance : Std.LawfulEqCmp Part.compare where
  compare_self := Std.ReflCmp.compare_self
  eq_of_compare := by
    intro p q h
    rw [Part.compare_eq, compareLex_eq_eq] at h
    have hrank : p.rank = q.rank := Std.LawfulEqOrd.eq_of_compare h.1
    have htext : p.text = q.text := Std.LawfulEqOrd.eq_of_compare h.2
    cases p <;> cases q <;> simp_all [Part.rank, Part.text]

/-! ### Paths -/

/-- Lists of parts are ordered part by part. -/
theorem compareParts_eq : compareParts = List.compareLex Part.compare := by
  funext ps qs
  induction ps generalizing qs with
  | nil => cases qs <;> rfl
  | cons p ps ih =>
      cases qs with
      | nil => rfl
      | cons q qs => rw [compareParts, ih, List.compareLex_cons_cons]

instance : Std.TransCmp compareParts := by
  rw [compareParts_eq]
  infer_instance

instance : Std.LawfulEqCmp compareParts := by
  rw [compareParts_eq]
  infer_instance

theorem notAfter_trans {a b c : String} (hab : notAfter a b = true) (hbc : notAfter b c = true) :
    notAfter a c = true := by
  have hac : (compareParts (parts a) (parts c)).isLE = true := Std.TransCmp.isLE_trans hab hbc
  exact hac

theorem notAfter_total (a b : String) : (notAfter a b || notAfter b a) = true := by
  have hswap : compareParts (parts a) (parts b) = (compareParts (parts b) (parts a)).swap :=
    Std.OrientedCmp.eq_swap
  rw [notAfter, notAfter, compare, compare, hswap]
  cases compareParts (parts b) (parts a) <;> rfl

/-- Paths that come at one place in the order have the same parts. -/
theorem parts_eq_of_notAfter {a b : String} (hab : notAfter a b = true)
    (hba : notAfter b a = true) : parts a = parts b := by
  have heq : compareParts (parts a) (parts b) = .eq := Std.OrientedCmp.isLE_antisymm hab hba
  exact Std.LawfulEqCmp.eq_of_compare heq

/-! ### Strict order -/

/-- A path comes before another one if it is not after it and has other parts. -/
theorem compare_eq_lt {a b : String} (h : notAfter a b = true) (hne : parts a ≠ parts b) :
    compare a b = .lt := by
  cases hcompare : compare a b with
  | lt => rfl
  | eq =>
      have hparts : compareParts (parts a) (parts b) = .eq := hcompare
      exact absurd (Std.LawfulEqCmp.eq_of_compare hparts) hne
  | gt => simp [notAfter, hcompare] at h

theorem compare_lt_trans {a b c : String} (hab : compare a b = .lt) (hbc : compare b c = .lt) :
    compare a c = .lt := by
  have hac : compareParts (parts a) (parts c) = .lt := Std.TransCmp.lt_trans hab hbc
  exact hac

/-- The order of a path depends on its parts only. -/
theorem compare_congr {a b : String} (h : parts a = parts b) (c : String) :
    compare a c = compare b c := by
  rw [compare, compare, h]

/-- Lists of paths in strict order whose members have the same parts are the same list, but for
how the paths are spelled. -/
theorem map_parts_eq {paths paths' : List String}
    (h : paths.Pairwise fun a b => compare a b = .lt)
    (h' : paths'.Pairwise fun a b => compare a b = .lt)
    (hmem : ∀ ps, ps ∈ paths.map parts ↔ ps ∈ paths'.map parts) :
    paths.map parts = paths'.map parts := by
  have hmap : (paths.map parts).Pairwise fun p q => compareParts p q = .lt := List.pairwise_map.2 h
  have hmap' : (paths'.map parts).Pairwise fun p q => compareParts p q = .lt :=
    List.pairwise_map.2 h'
  have hne : ∀ {p q : List Part}, compareParts p q = .lt → p ≠ q := by
    rintro p q hlt rfl
    have heq : compareParts p p = .eq := Std.ReflCmp.compare_self
    cases hlt.symm.trans heq
  have hperm : (paths.map parts).Perm (paths'.map parts) :=
    (List.perm_ext_iff_of_nodup (hmap.imp hne) (hmap'.imp hne)).2 hmem
  refine List.Perm.eq_of_pairwise ?_ hmap hmap' hperm
  intro p q _ _ hlt hgt
  exact absurd hgt (Std.OrientedCmp.not_lt_of_lt hlt)

end Path

end Pare
