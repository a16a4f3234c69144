import Pare.Span

/-!
**Byte offsets into a text.**

A text is a list of characters; an offset counts the bytes of its UTF-8 form.  An offset that lies
beyond the end or inside a character names no position, so every way to cut a text by offsets is
partial: it answers `none` exactly when one of its offsets is not a boundary between characters.

Main definitions:

* `Pare.Text.byteSize` — the number of bytes of a text;
* `Pare.Text.splitAt?` — the text before and the text from an offset;
* `Pare.Text.cut?`, `Pare.Text.excerpt` — the text between two offsets, and the text of a span;
* `Pare.Text.upTo`, `Pare.Text.beyond` — the text before an offset and the text from it, as
  computations that may be faulty.

Main results:

* `Pare.Text.spec_of_splitAt?` — a split loses nothing, and is made at the offset it was asked for;
* `Pare.Text.beyond?_eq` — what lies beyond an offset is the second half of the split there.
-/

set_option relaxedAutoImplicit false
set_option autoImplicit false

namespace Pare

namespace Text

/-! ### Sizes -/

/-- The number of bytes of a text in its UTF-8 form. -/
def byteSize (cs : List Char) : Nat := cs.foldr (fun c n => c.utf8Size + n) 0

@[simp] theorem byteSize_nil : byteSize [] = 0 := rfl

@[simp] theorem byteSize_cons (c : Char) (cs : List Char) :
    byteSize (c :: cs) = c.utf8Size + byteSize cs := rfl

@[simp] theorem byteSize_append (as bs : List Char) :
    byteSize (as ++ bs) = byteSize as + byteSize bs := by
  induction as with
  | nil => simp
  | cons c cs ih => simp [ih, Nat.add_assoc]

/-! ### Splitting -/

/-- The text before and the text from an offset, if the offset is a character boundary. -/
def splitAt? : Nat → List Char → Option (List Char × List Char)
  | 0, cs => some ([], cs)
  | _ + 1, [] => none
  | n + 1, c :: cs =>
      if c.utf8Size ≤ n + 1 then
        (splitAt? (n + 1 - c.utf8Size) cs).map fun parts => (c :: parts.1, parts.2)
      else none

@[simp] theorem splitAt?_zero (cs : List Char) : splitAt? 0 cs = some ([], cs) := by
  cases cs <;> rfl

/-- A split loses nothing, and is made at the offset it was asked for. -/
theorem spec_of_splitAt? {n : Nat} {cs as bs : List Char} (h : splitAt? n cs = some (as, bs)) :
    as ++ bs = cs ∧ byteSize as = n := by
  fun_induction splitAt? n cs generalizing as bs with
  | case1 cs =>
      obtain ⟨rfl, rfl⟩ := Prod.mk.inj (Option.some.inj h)
      exact ⟨rfl, rfl⟩
  | case2 => cases h
  | case3 n c cs hle ih =>
      obtain ⟨⟨front, back⟩, hsplit, hparts⟩ := Option.map_eq_some_iff.1 h
      obtain ⟨rfl, rfl⟩ := Prod.mk.inj hparts
      obtain ⟨rfl, hsize⟩ := ih hsplit
      refine ⟨rfl, ?_⟩
      dsimp only at hsize ⊢
      rw [byteSize_cons]
      omega
  | case4 => cases h

/-! ### Cutting -/

/-- The characters from an offset on, if the offset is a character boundary. -/
def beyond? : Nat → List Char → Option (List Char)
  | 0, cs => some cs
  | _ + 1, [] => none
  | n + 1, c :: cs => if c.utf8Size ≤ n + 1 then beyond? (n + 1 - c.utf8Size) cs else none

/-- What lies beyond an offset is the second half of the split there. -/
theorem beyond?_eq (n : Nat) (cs : List Char) : beyond? n cs = (splitAt? n cs).map Prod.snd := by
  induction cs generalizing n with
  | nil => cases n <;> rfl
  | cons c cs ih =>
      cases n with
      | zero => rfl
      | succ n =>
          simp only [beyond?, splitAt?]
          split
          · rw [ih, Option.map_map]
            rfl
          · rfl

/-- The characters between two offsets, if both are character boundaries in order. -/
def cut? (cs : List Char) (start stop : Nat) : Option (List Char) := do
  if start ≤ stop then
    let tail ← beyond? start cs
    let (middle, _) ← splitAt? (stop - start) tail
    return middle
  else none

/-- The text of a span, empty if the span does not fit the text. -/
def excerpt (cs : List Char) (span : Span) : String :=
  String.ofList ((cut? cs span.start span.stop).getD [])

/-- The characters before an offset; a fault if it is no character boundary. -/
def upTo (cs : List Char) (offset : Nat) : Except Fault (List Char) :=
  match splitAt? offset cs with
  | some (front, _) => .ok front
  | none => .error (.cut offset)

/-- The characters from an offset on; a fault if it is no character boundary. -/
def beyond (cs : List Char) (offset : Nat) : Except Fault (List Char) :=
  match beyond? offset cs with
  | some back => .ok back
  | none => .error (.cut offset)

/-- The characters between two offsets; a fault if one is no character boundary or they are out
of order. -/
def between (cs : List Char) (start stop : Nat) : Except Fault (List Char) :=
  match cut? cs start stop with
  | some middle => .ok middle
  | none => .error (.cut stop)

end Text

end Pare
