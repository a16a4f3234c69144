import Pare.Proofs.Coverage
import Pare.Proofs.Editing
import Pare.Proofs.Positions

/-!
**Findings come in the order in which a reader meets them.**

The rule sorts what it reports by byte offsets, and a linter tells it by lines and columns, which
count characters.  The order carries over, since positions come in the order of the offsets; and as
different offsets have different positions, two reports on different spans can be told apart by
where they are said to be.

Main definitions:

* `Pare.Finding.place` — the four numbers that say where a finding is, to be compared in order.

Main results:

* `Pare.Rule.run_pairwise` — the rule reports in the order of spans;
* `Pare.Finding.place_le`, `Pare.Finding.place_eq_iff` — the order of spans is that of the places,
  and different spans have different ones;
* `Pare.Linter.lintText_in_order` — **findings come in the order of their places, one for each
  report**.
-/

set_option relaxedAutoImplicit false
set_option autoImplicit false

namespace Pare

/-! ### The order of reports -/

/-- The walk reports in the order of spans. -/
theorem walk_pairwise {ctx : Context} {detectors : List Detector} {found : List Detection}
    (h : walk ctx detectors = .ok found) : found.Pairwise fun a b => a.notAfter b = true := by
  obtain ⟨ids, -, h⟩ := bind_eq_ok.1 h
  obtain ⟨reports, -, h⟩ := bind_eq_ok.1 h
  obtain rfl := Except.ok.inj h
  exact (pairwise_notAfter_mergeSort reports).sublist (dropRepeats_sublist _)

/-- The rule reports in the order of spans. -/
theorem Rule.run_pairwise {rule : Rule} {ctx : Context} {found : List Detection}
    (h : rule.run ctx = .ok found) : found.Pairwise fun a b => a.notAfter b = true := by
  unfold Rule.run at h
  split at h
  · exact walk_pairwise h
  · obtain rfl := Except.ok.inj h
    exact .nil

/-! ### The order of findings -/

namespace Finding

/-- Where a finding starts, by line and column, and then where it stops, to be compared in this
order. -/
def place (f : Finding) : ℕ ×ₗ ℕ ×ₗ ℕ ×ₗ ℕ :=
  toLex (f.start.line, toLex (f.start.column, toLex (f.stop.line, f.stop.column)))

/-- Places are compared by where findings start, and then by where they stop. -/
theorem place_le_iff {f g : Finding} :
    f.place ≤ g.place ↔
      f.start.key < g.start.key ∨ f.start = g.start ∧ f.stop.key ≤ g.stop.key := by
  rw [← Source.Position.key_injective.eq_iff]
  simp only [place, Source.Position.key, Prod.Lex.toLex_le_toLex, Prod.Lex.toLex_lt_toLex,
    toLex_inj, Prod.mk.injEq]
  omega

/-- Findings have one place if they start at one position and stop at one. -/
theorem place_eq_place_iff {f g : Finding} :
    f.place = g.place ↔ f.start = g.start ∧ f.stop = g.stop := by
  rw [← Source.Position.key_injective.eq_iff, ← Source.Position.key_injective.eq_iff]
  simp only [place, Source.Position.key, toLex_inj, Prod.mk.injEq]
  tauto

variable {source : Source} {d e : Detection}

/-- Reports in the order of spans become findings in the order of places. -/
theorem place_le (file : String) (severity : Severity) (hd : source.Fits d.span)
    (he : source.Fits e.span) (h : d.notAfter e = true) :
    (ofDetection file source severity d).place ≤ (ofDetection file source severity e).place := by
  rw [place_le_iff]
  rcases Span.notAfter_iff.1 h with hstart | ⟨hstart, hstop⟩
  · exact .inl (Source.position_lt_of_lt hd.1 he.1 hstart)
  · refine .inr ⟨congrArg source.position hstart, ?_⟩
    rcases Nat.lt_or_eq_of_le hstop with hstop | hstop
    · exact le_of_lt (Source.position_lt_of_lt hd.2 he.2 hstop)
    · exact le_of_eq (congrArg (fun stop => (source.position stop).key) hstop)

/-- Reports become findings at one place exactly if they have one span. -/
theorem place_eq_iff (file : String) (severity : Severity) (hd : source.Fits d.span)
    (he : source.Fits e.span) :
    (ofDetection file source severity d).place = (ofDetection file source severity e).place ↔
      d.span = e.span := by
  rw [place_eq_place_iff, Span.ext_iff]
  exact and_congr (Source.position_eq_iff hd.1 he.1) (Source.position_eq_iff hd.2 he.2)

end Finding

/-! ### Reports on a text -/

/-- **Findings come in the order of their places, one for each report.**  On a program for which the
rule has a result, and where what it reports lies between characters of the text, a linter has a
result too.  Its findings are those on the reports of the rule, one for each and in the same order;
by line and column of their start and then of their stop no finding comes after a later one; and two
reports are said to be at one place only if they have one span. -/
theorem Linter.lintText_in_order (linter : Linter) {read : Reader} (path : String) {text : String}
    {ctx : Context} {found : List Detection} (hread : read text = some ctx)
    (hrun : linter.rule.run ctx = .ok found) (hfits : ∀ d ∈ found, ctx.source.Fits d.span) :
    ∃ report, (linter.lintText read path text).run = .ok (.ok report) ∧
      report.findings = found.map (Finding.ofDetection path ctx.source linter.severity) ∧
      (report.findings.Pairwise fun f g => f.place ≤ g.place) ∧
      ∀ (i j : Nat) (d e : Detection) (f g : Finding), found[i]? = some d → found[j]? = some e →
        report.findings[i]? = some f → report.findings[j]? = some g →
        (f.place = g.place ↔ d.span = e.span) := by
  refine ⟨linter.report path ctx.source found, Linter.lintText_eq_ok hread hrun path, rfl, ?_, ?_⟩
  · refine List.pairwise_map.2 ((Rule.run_pairwise hrun).imp_of_mem ?_)
    intro d e hd he h
    exact Finding.place_le path linter.severity (hfits d hd) (hfits e he) h
  · intro i j d e f g hd he hf hg
    simp only [Linter.report, List.getElem?_map, hd, he, Option.map_some, Option.some.injEq]
      at hf hg
    subst hf hg
    exact Finding.place_eq_iff path linter.severity (hfits d (List.mem_of_getElem? hd))
      (hfits e (List.mem_of_getElem? he))

/-! ### Two lines -/

/-- The program `(é);`, and on a second line `(b)`. -/
def groupedLines : Context where
  tree := ⟨#[
    ⟨.program [1, 3], .upTo 0 9, none⟩,
    ⟨.expressionStatement 2, .upTo 0 5, some 0⟩,
    ⟨.identifier "é", .upTo 1 3, some 1⟩,
    ⟨.expressionStatement 4, .upTo 6 9, some 0⟩,
    ⟨.identifier "b", .upTo 7 8, some 3⟩]⟩
  source := ⟨"(é);\n(b)", #[
    ⟨.punctuator, "(", .upTo 0 1⟩, ⟨.word, "é", .upTo 1 3⟩, ⟨.punctuator, ")", .upTo 3 4⟩,
    ⟨.punctuator, ";", .upTo 4 5⟩, ⟨.punctuator, "(", .upTo 6 7⟩, ⟨.word, "b", .upTo 7 8⟩,
    ⟨.punctuator, ")", .upTo 8 9⟩], #[]⟩

/-- A reader for that program only. -/
def readGroupedLines : Reader := fun text =>
  if text = groupedLines.source.text then some groupedLines else none

set_option maxRecDepth 20000 in
theorem Rule.run_groupedLines : Rule.run {} groupedLines =
    .ok [⟨2, .parens, .upTo 0 4, some ⟨⟨.upTo 0 1, ""⟩, [⟨.upTo 3 4, ""⟩]⟩⟩,
      ⟨4, .parens, .upTo 6 9, some ⟨⟨.upTo 6 7, ""⟩, [⟨.upTo 8 9, ""⟩]⟩⟩] := by
  cbv

set_option maxRecDepth 20000 in
/-- The parentheses on the first line are told before those on the second, at another place. -/
theorem Linter.lintText_in_order_lines : ∃ report f g,
    (Linter.lintText ⟨{}, .warning⟩ readGroupedLines "a" "(é);\n(b)").run = .ok (.ok report) ∧
    report.findings = [f, g] ∧ f.place = toLex (1, toLex (1, toLex (1, 4))) ∧
    g.place = toLex (2, toLex (1, toLex (2, 4))) ∧ f.place ≤ g.place ∧ f.place ≠ g.place := by
  have hfits : ∀ d ∈ [
      Detection.mk 2 .parens (.upTo 0 4) (some ⟨⟨.upTo 0 1, ""⟩, [⟨.upTo 3 4, ""⟩]⟩),
      ⟨4, .parens, .upTo 6 9, some ⟨⟨.upTo 6 7, ""⟩, [⟨.upTo 8 9, ""⟩]⟩⟩],
      groupedLines.source.Fits d.span := by
    intro d hd
    simp only [List.mem_cons, List.not_mem_nil, or_false] at hd
    rcases hd with rfl | rfl
    · exact ⟨by decide +kernel, by decide +kernel⟩
    · exact ⟨by decide +kernel, by decide +kernel⟩
  have hread : readGroupedLines "(é);\n(b)" = some groupedLines := rfl
  obtain ⟨report, hreport, hfindings, horder, hplaces⟩ :=
    Linter.lintText_in_order ⟨{}, .warning⟩ "a" hread Rule.run_groupedLines hfits
  refine ⟨report, _, _, hreport, hfindings, by cbv, by cbv, ?_, ?_⟩
  · rw [hfindings] at horder
    exact (List.pairwise_cons.1 horder).1 _ (List.mem_singleton_self _)
  · rw [hfindings] at hplaces
    intro hsame
    have hspan : Span.upTo 0 4 = Span.upTo 6 9 := (hplaces 0 1 _ _ _ _ rfl rfl rfl rfl).1 hsame
    exact absurd hspan (by decide)

end Pare
