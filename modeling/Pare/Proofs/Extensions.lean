import Mathlib.Data.List.Forall2
import Mathlib.Data.List.TakeWhile
import Pare.Config

/-!
**Extensions.**

The extension of a file is what stands behind the last dot of its name, if something stands in front
of that dot.  A file is wanted if its extension is one of those in the settings, where it makes no
difference how many dots are written in front of it there, and whether the letters of ASCII are
capital or small.

Main definitions:

* `Pare.Path.HasExtension` — a path whose last part is a stem, a dot and the extension;
* `Pare.SameLetters` — texts that differ in the case of ASCII letters only;
* `Pare.Config.Names` — what is written in the settings names an extension;
* `Pare.Config.Wants` — a file with one of the extensions in the settings.

Main results:

* `Pare.Path.extension?_eq_some_iff` — what the extension of a path is;
* `Pare.Config.lower_eq_iff` — small letters are the same exactly for texts that differ in case;
* `Pare.Config.takes_iff` — **the files to take are those that are wanted**.
-/

set_option relaxedAutoImplicit false
set_option autoImplicit false

namespace Pare

/-! ### The extension of a path -/

namespace Path

/-- The last part of the path is a stem, a dot and the extension, in which there is no dot. -/
def HasExtension (path extension : String) : Prop :=
  ∃ name stem, fileName? path = some name ∧ stem ≠ [] ∧ '.' ∉ extension.toList ∧
    name.toList = stem ++ '.' :: extension.toList

theorem extensionOf?_eq_some_iff {name extension : String} :
    extensionOf? name = some extension ↔ ∃ stem, stem ≠ [] ∧ '.' ∉ extension.toList ∧
      name.toList = stem ++ '.' :: extension.toList := by
  have hcut := List.takeWhile_append_dropWhile (p := fun c => c != '.') (l := name.toList.reverse)
  constructor
  · intro h
    simp only [extensionOf?] at h
    split at h
    case isFalse => cases h
    case isTrue hlength =>
      obtain rfl := Option.some.inj h
      have hlong := congrArg List.length hcut
      rw [List.length_append] at hlong
      match hrest : name.toList.reverse.dropWhile fun c => c != '.' with
      | [] => simp only [hrest, List.length_nil] at hlong; omega
      | [_] => simp only [hrest, List.length_singleton] at hlong; omega
      | dot :: last :: front =>
          have hdot := List.head?_dropWhile_not (fun c => c != '.') name.toList.reverse
          simp only [hrest, List.head?_cons, bne_eq_false_iff_eq] at hdot
          refine ⟨(last :: front).reverse, by simp, ?_, ?_⟩
          · intro hmem
            rw [String.toList_ofList, List.mem_reverse] at hmem
            simpa using List.mem_takeWhile_imp hmem
          · rw [hrest, hdot] at hcut
            simpa using (congrArg List.reverse hcut).symm
  · rintro ⟨stem, hstem, hbare, hname⟩
    have htail : name.toList.reverse.takeWhile (fun c => c != '.') = extension.toList.reverse := by
      rw [hname, List.reverse_append, List.reverse_cons, List.append_assoc,
        List.takeWhile_append_of_pos, List.singleton_append, List.takeWhile_cons_of_neg,
        List.append_nil]
      · simp
      · intro c hc
        have hne : c ≠ '.' := by
          rintro rfl
          exact hbare (List.mem_reverse.1 hc)
        simpa using hne
    have hpositive := List.length_pos_of_ne_nil hstem
    rw [extensionOf?, htail, if_pos, List.reverse_reverse, String.ofList_toList]
    rw [hname]
    simp only [List.length_reverse, List.length_append, List.length_cons]
    omega

theorem extension?_eq_some_iff {path extension : String} :
    extension? path = some extension ↔ HasExtension path extension := by
  rw [extension?, Option.bind_eq_some_iff]
  simp only [extensionOf?_eq_some_iff, HasExtension, exists_and_left]

end Path

/-! ### The case of letters -/

/-- The first character is a capital letter of ASCII, and the second one the small letter for it. -/
def Capital (c d : Char) : Prop := 'A' ≤ c ∧ c ≤ 'Z' ∧ d.toNat = c.toNat + 32

/-- Two texts that differ in nothing but the case of ASCII letters. -/
def SameLetters : List Char → List Char → Prop :=
  List.Forall₂ fun c d => c = d ∨ Capital c d ∨ Capital d c

theorem toNat_toLower (c : Char) :
    c.toLower.toNat = if 'A' ≤ c ∧ c ≤ 'Z' then c.toNat + 32 else c.toNat := by
  by_cases h : 'A' ≤ c ∧ c ≤ 'Z'
  · have hz : c.val.toNat ≤ 90 := UInt32.le_iff_toNat_le.1 h.2
    have hlower : c.toLower.val = c.val + 32 := by
      unfold Char.toLower
      exact congrArg Char.val (dif_pos h)
    rw [if_pos h, Char.toNat, Char.toNat, hlower, UInt32.toNat_add]
    exact Nat.mod_eq_of_lt (by simp only [UInt32.reduceToNat]; omega)
  · rw [if_neg h]
    exact congrArg Char.toNat (dif_neg h)

theorem toLower_eq_iff {c d : Char} :
    c.toLower = d.toLower ↔ c = d ∨ Capital c d ∨ Capital d c := by
  rw [← Char.toNat_inj, ← Char.toNat_inj, toNat_toLower, toNat_toLower]
  simp only [Capital, Char.le_def, UInt32.le_iff_toNat_le]
  have ha : 'A'.val.toNat = 65 := rfl
  have hz : 'Z'.val.toNat = 90 := rfl
  simp only [Char.toNat]
  split <;> split <;> omega

namespace Config

theorem lower_eq_iff {a b : String} : lower a = lower b ↔ SameLetters a.toList b.toList := by
  rw [lower, lower, String.ofList_inj, ← List.forall₂_eq_eq_eq, List.forall₂_map_left_iff,
    List.forall₂_map_right_iff]
  simp only [toLower_eq_iff, SameLetters]

/-! ### Wanted files -/

/-- What is written in the settings names an extension: they are the same but for dots in front and
the case of letters. -/
def Names (written extension : String) : Prop :=
  ∃ dots bare, written.toList = dots ++ bare ∧ (∀ x ∈ dots, x = '.') ∧ bare.head? ≠ some '.' ∧
    SameLetters bare extension.toList

/-- The extension of the file is one of those in the settings. -/
def Wants (c : Config) (path : String) : Prop :=
  ∃ extension, Path.HasExtension path extension ∧ ∃ written ∈ c.extensions, Names written extension

/-- What is left of a text when the dots in front of it are dropped. -/
theorem dropWhile_dots_eq_iff {text bare : List Char} :
    text.dropWhile (· == '.') = bare ↔
      ∃ dots, text = dots ++ bare ∧ (∀ x ∈ dots, x = '.') ∧ bare.head? ≠ some '.' := by
  constructor
  · rintro rfl
    refine ⟨text.takeWhile (· == '.'), List.takeWhile_append_dropWhile.symm, ?_, ?_⟩
    · intro x hx
      simpa using List.mem_takeWhile_imp hx
    · intro hhead
      have hfirst := List.head?_dropWhile_not (· == '.') text
      rw [hhead] at hfirst
      exact absurd hfirst (by decide)
  · rintro ⟨dots, rfl, hdots, hbare⟩
    rw [List.dropWhile_append_of_pos fun x hx => by simpa using hdots x hx]
    cases bare with
    | nil => rfl
    | cons c rest => exact List.dropWhile_cons_of_neg (by simpa using hbare)

theorem lower_dropWhile_eq_iff {written extension : String} :
    lower (String.ofList (written.toList.dropWhile (· == '.'))) = lower extension ↔
      Names written extension := by
  rw [lower_eq_iff, String.toList_ofList]
  constructor
  · intro hsame
    obtain ⟨dots, hwritten, hdots, hbare⟩ := dropWhile_dots_eq_iff.1 rfl
    exact ⟨dots, _, hwritten, hdots, hbare, hsame⟩
  · rintro ⟨dots, bare, hwritten, hdots, hbare, hsame⟩
    rwa [dropWhile_dots_eq_iff.2 ⟨dots, hwritten, hdots, hbare⟩]

/-- **The files to take are those that are wanted.** -/
theorem takes_iff {c : Config} {path : String} : c.takes path = true ↔ c.Wants path := by
  simp only [takes, Wants, ← Path.extension?_eq_some_iff]
  cases Path.extension? path with
  | none => simp
  | some extension => simp [List.any_eq_true, lower_dropWhile_eq_iff]

end Config

end Pare
