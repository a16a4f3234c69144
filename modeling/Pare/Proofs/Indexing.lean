import Pare.Rule.Indexing
import Pare.Proofs.Repair

/-!
**Keys in brackets.**

The brackets around a constant key are replaced, with the key, by a dot and the name.  The key is
one token, its neighbours are the brackets, and no comment stands between them, so the three tokens
are all that the edit touches.

Main definitions:

* `Pare.Patch.Dots` — a patch that replaces a key and the brackets beside it.

Main results:

* `Pare.Patch.Dots.placed`, `Pare.Patch.Dots.repairs` — such a patch fits the text, and where the
  key is a string with the value that the tree gives, it keeps the contract;
* `Pare.checkIndexing_found` — what the report is;
* `Pare.checkIndexing_repairs` — **a report on an access has a result, and its patch keeps the
  contract**.
-/

set_option relaxedAutoImplicit false
set_option autoImplicit false

namespace Pare

open Text (ink)

variable {ctx : Context}

theorem isInteger_eq_ok {id : NodeId} {node : Node} (h : ctx.tree.nodes[id]? = some node) :
    ∃ b, isInteger ctx id = .ok b := by
  rw [isInteger, Context.kind_eq_ok h, ok_bind]
  split
  · rw [Context.span_eq_ok h, ok_bind]
    exact ⟨_, rfl⟩
  · exact ⟨_, rfl⟩

/-- A key and its neighbours, if no comment stands between them. -/
theorem lexemesIn_brackets {s : Source} (h : s.WellFormed) {left key right : Token}
    (hkey : key ∈ s.tokens.toList) (hleft : s.tokenBefore key.span = some left)
    (hright : s.tokenAfter key.span = some right) (hle : left.span.start ≤ right.span.stop)
    (hfree : s.hasCommentsIn ⟨left.span.start, right.span.stop, hle⟩ = false) :
    s.lexemesIn left.span.start right.span.stop = [left, key, right] := by
  obtain ⟨hmem, hbefore, -⟩ := Source.tokenBefore_eq_some h.tokens hleft
  obtain ⟨hmem', hafter, -⟩ := Source.tokenAfter_eq_some h.tokens hright
  have hl := left.span.start_le_stop
  have hk := key.span.start_le_stop
  have hr := right.span.start_le_stop
  have hin : key.span.stop ≤ right.span.stop := by omega
  have hgap := h.lexemesIn_before hleft hfree hl (show key.span.start ≤ right.span.stop by omega)
  have hgap' := h.lexemesIn_after hright hfree (show left.span.start ≤ key.span.stop by omega) hr
  rw [h.lexemesIn_split (Source.mem_lexemes_of_token hmem) (Nat.le_refl _) (by omega),
    h.lexemesIn_split (Source.mem_lexemes_of_token hkey) hbefore hin,
    h.lexemesIn_split (Source.mem_lexemes_of_token hmem') hafter (Nat.le_refl _),
    h.lexemesIn_point, h.lexemesIn_point, hgap, hgap']
  rfl

/-- A patch that replaces a key and the brackets beside it, with no comment between them, by a dot
and a name. -/
structure Patch.Dots (ctx : Context) (key : Span) (name : String) (left right : Token) (p : Patch) :
    Prop where
  opening : left.isSign "[" = true
  closing : right.isSign "]" = true
  before : ctx.source.tokenBefore key = some left
  after : ctx.source.tokenAfter key = some right
  le : left.span.start ≤ right.span.stop
  free : ctx.source.hasCommentsIn ⟨left.span.start, right.span.stop, le⟩ = false
  eq : p = .single ⟨⟨left.span.start, right.span.stop, le⟩, "." ++ name⟩

/-- The patch of a key in brackets, where there is one. -/
theorem dotPatch_dots (h : ctx.Shaped) {object key : NodeId} {objectNode keyNode : Node}
    (hobject : ctx.tree.nodes[object]? = some objectNode)
    (hkey : ctx.tree.nodes[key]? = some keyNode) (name : String) :
    Yields (dotPatch ctx object key name) fun p =>
      ∃ left right, p.Dots ctx keyNode.span name left right := by
  rw [dotPatch, Context.span_eq_ok hkey, ok_bind]
  rcases hleft : ctx.source.tokenBefore keyNode.span with _ | left
  · exact yields_none
  rcases hright : ctx.source.tokenAfter keyNode.span with _ | right
  · exact yields_none
  refine yields_unless fun hsigns => ?_
  obtain ⟨-, hbefore, -⟩ := Source.tokenBefore_eq_some h.source.tokens hleft
  obtain ⟨-, hafter, -⟩ := Source.tokenAfter_eq_some h.source.tokens hright
  have hle : left.span.start ≤ right.span.stop := by
    have := left.span.start_le_stop
    have := keyNode.span.start_le_stop
    have := right.span.start_le_stop
    omega
  rw [Context.span_eq_ok hobject, ok_bind, Span.ofBounds_of_le hle, ok_bind]
  refine yields_unless fun hplain => ?_
  obtain ⟨b, hinteger⟩ := isInteger_eq_ok hobject
  rw [hinteger, ok_bind]
  refine yields_unless fun _ => yields_some ?_
  simp only [Bool.or_eq_true, Bool.not_eq_true', not_or, Bool.not_eq_false] at hsigns hplain
  exact ⟨left, right, hsigns.1, hsigns.2, hleft, hright, hle, by simpa using hplain.2, rfl⟩

namespace Patch.Dots

variable {key : Span} {name : String} {left right : Token} {p : Patch}

/-- The brackets start and end at joints. -/
theorem joints (hp : p.Dots ctx key name left right) (h : ctx.source.WellFormed) :
    ctx.source.Joint left.span.start ∧ ctx.source.Joint right.span.stop := by
  obtain ⟨hmem, -, -⟩ := Source.tokenBefore_eq_some h.tokens hp.before
  obtain ⟨hmem', -, -⟩ := Source.tokenAfter_eq_some h.tokens hp.after
  exact ⟨h.joint_start (Source.mem_lexemes_of_token hmem),
    h.joint_stop (Source.mem_lexemes_of_token hmem')⟩

/-- The patch fits the text, whatever the key is. -/
theorem placed (hp : p.Dots ctx key name left right) (h : ctx.source.WellFormed) :
    Placed ctx.source.text.toList 0 p.edits := by
  obtain ⟨hstart, hstop⟩ := hp.joints h
  rw [hp.eq]
  refine ⟨?_, fun _ _ => Nat.zero_le _, List.pairwise_singleton ..⟩
  simpa using ⟨hstart.boundary, hstop.boundary⟩

/-- If the key is a string with this value, the patch keeps the contract. -/
theorem repairs {token : Token} (hp : p.Dots ctx token.span name left right)
    (h : ctx.source.WellFormed) (htoken : token ∈ ctx.source.tokens.toList) {quote : Char}
    (hquote : quote = '"' ∨ quote = '\'')
    (hvalue : token.value.toList = quote :: name.toList ++ [quote]) {d : Detection}
    (hissue : d.issue = .brackets) (hkind : ctx.kind d.node = .ok (.literal (.string (some name))))
    (hspan : ctx.span d.node = .ok token.span) : Repairs ctx d p := by
  have hlexemes := lexemesIn_brackets h htoken hp.before hp.after hp.le hp.free
  obtain ⟨hstart, hstop⟩ := hp.joints h
  have hrespells : Edit.Respells ctx.source ⟨⟨left.span.start, right.span.stop, hp.le⟩, "." ++ name⟩
      [left, token, right] [".", name] :=
    ⟨hstart, hstop, hlexemes, by
      rw [String.toList_append]
      exact (Laid.word ".").append (Laid.word name)⟩
  refine ⟨hp.placed h, ?_, fun _ => ?_, fun hlines _ => ?_, by simp [hissue]⟩
  · -- the signs and quotes weigh four, the dot one, and the name stays
    have hink := h.ink_lexemes_le hp.le hstart hstop
    rw [hlexemes] at hink
    have hkeyInk : ink token.value.toList = ink name.toList + 2 := by
      have hblank : Text.isBlank quote = false := by
        rcases hquote with rfl | rfl <;> decide +kernel
      rw [hvalue]
      simp [Text.ink_cons, hblank]
    have hleftInk := Token.ink_of_isSign hp.opening (show ink "[".toList = 1 by decide +kernel)
    have hrightInk := Token.ink_of_isSign hp.closing (show ink "]".toList = 1 by decide +kernel)
    have hdot : ink ".".toList = 1 := by decide +kernel
    simp only [List.map_cons, List.map_nil, List.sum_cons, List.sum_nil] at hink
    simp only [hp.eq, Patch.edits_single, inkGained, inkLost, List.map_cons, List.map_nil,
      List.sum_cons, List.sum_nil, String.toList_append, Text.ink_append]
    omega
  · obtain ⟨front, back, hall, hlaid⟩ := hrespells.single h
    have hwords : Respelled ctx d (front.map Token.value ++ "." :: name :: back.map Token.value) :=
      .brackets hissue hkind hspan hp.opening hp.closing (by simpa using hall)
    exact ⟨_, hwords, by simpa [hp.eq] using hlaid⟩
  · obtain ⟨hmem, -, -⟩ := Source.tokenBefore_eq_some h.tokens hp.before
    have hrewords : Edit.Rewords ctx.source
        ⟨⟨left.span.start, right.span.stop, hp.le⟩, "." ++ name⟩
        [⟨.punctuator, "."⟩, ⟨.word, name⟩] := by
      refine ⟨h.settled hlines ⟨left, hmem, .inl rfl⟩, hstop, ?_, ?_⟩
      · rw [hrespells.old]
        exact .key hp.opening (h.isCode token htoken) hp.closing hvalue
      · rw [String.toList_append]
        exact (Lined.word ⟨.punctuator, "."⟩).append (Lined.word ⟨.word, name⟩)
    rw [hp.eq]
    exact hrewords.single

end Patch.Dots

/-- A report on an access names its key, and its patch replaces the brackets. -/
theorem checkIndexing_dots (h : ctx.Shaped) {id : NodeId} {node : Node}
    (hnode : ctx.tree.nodes[id]? = some node) :
    Yields (checkIndexing ctx id) fun d => d.issue = .brackets ∧ ∃ keyNode name,
      ctx.tree.nodes[d.node]? = some keyNode ∧ keyNode.kind = .literal (.string (some name)) ∧
      ∀ p ∈ d.patch, ∃ left right, p.Dots ctx keyNode.span name left right := by
  rw [checkIndexing, Context.kind_eq_ok hnode, ok_bind]
  split
  · rename_i object key hmember
    obtain ⟨objectNode, hobject, -⟩ := h.exists_part hnode (show object ∈ node.kind.children by
      simp [hmember, Kind.children])
    obtain ⟨keyNode, hkey, -⟩ := h.exists_part hnode (show key ∈ node.kind.children by
      simp [hmember, Kind.children])
    rw [Context.kind_eq_ok hkey, ok_bind]
    split
    · rename_i name hname
      refine yields_unless fun _ => ?_
      rw [Context.span_eq_ok hkey, ok_bind]
      refine (dotPatch_dots h hobject hkey name).bind fun r hr => yields_some ?_
      exact ⟨rfl, keyNode, name, hkey, hname, hr⟩
    · exact yields_none
  · exact yields_none

/-- A report on an access: the key is a string, and the patch is the one that writes it after a
dot. -/
theorem checkIndexing_found {id : NodeId} {d : Detection}
    (hcheck : checkIndexing ctx id = .ok (some d)) :
    d.issue = .brackets ∧ ∃ object name, ctx.kind id = .ok (.member object d.node true false) ∧
      ctx.kind d.node = .ok (.literal (.string (some name))) ∧
      dotPatch ctx object d.node name = .ok d.patch := by
  obtain ⟨kind, hkind, hcheck⟩ := bind_eq_ok.1 hcheck
  split at hcheck
  · rename_i object key
    obtain ⟨keyKind, hkeyKind, hcheck⟩ := bind_eq_ok.1 hcheck
    split at hcheck
    · rename_i name
      obtain ⟨-, hcheck⟩ := unless_eq_some hcheck
      obtain ⟨span, -, hcheck⟩ := bind_eq_ok.1 hcheck
      obtain ⟨patch, hpatch, hcheck⟩ := bind_eq_ok.1 hcheck
      obtain rfl := Option.some.inj (Except.ok.inj hcheck)
      exact ⟨rfl, object, name, hkind, hkeyKind, hpatch⟩
    · cases hcheck
  · cases hcheck

/-- **A report on an access has a result, and its patch keeps the contract.** -/
theorem checkIndexing_repairs (h : ctx.WellFormed) {id : NodeId} {node : Node}
    (hnode : ctx.tree.nodes[id]? = some node) :
    Yields (checkIndexing ctx id) (Detection.Sound ctx) := by
  refine (checkIndexing_dots h.shaped hnode).imp fun r hr d hd p hp => ?_
  obtain ⟨hissue, keyNode, name, hkey, hname, hdots⟩ := hr d hd
  obtain ⟨left, right, hdots⟩ := hdots p hp
  obtain ⟨token, htoken, hspan, quote, hquote, hvalue⟩ := h.quoted d.node keyNode name hkey hname
  rw [← hspan] at hdots
  refine hdots.repairs h.source htoken hquote hvalue hissue ?_ ?_
  · rw [Context.kind_eq_ok hkey, hname]
  · rw [Context.span_eq_ok hkey, hspan]

end Pare
