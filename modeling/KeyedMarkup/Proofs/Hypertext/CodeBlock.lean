import KeyedMarkup.Proofs.Doc.Wording
import KeyedMarkup.Proofs.Hypertext.Conversion

/-!
# Code blocks

A code block loses one newline at the end of its text when it is finished, and its hypertext gets
one newline at the end, so what comes out is what came in with its last line ended. Only a block
that would then be a single empty line has no text at all.
-/

namespace KeyedMarkup

namespace Doc

/-- The text with a newline at its end, added only if there is none. -/
def withFinalNewline (s : String) : String :=
  if s.toList.getLast? = some '\n' then s else s ++ "\n"

theorem toList_withoutFinalNewline_append {s : String} (h : s.toList.getLast? = some '\n') :
    (withoutFinalNewline s).toList ++ ['\n'] = s.toList := by
  rw [withoutFinalNewline, if_pos h, String.toList_ofList]
  exact List.dropLast_append_getLast? _ h

theorem withoutFinalNewline_append (s : String) :
    withoutFinalNewline s ++ "\n" = withFinalNewline s := by
  rw [withFinalNewline]
  split
  next h =>
    apply String.toList_injective
    rw [String.toList_append]
    exact toList_withoutFinalNewline_append h
  next h => rw [withoutFinalNewline, if_neg h]

theorem withoutFinalNewline_eq_empty_iff {s : String} :
    withoutFinalNewline s = "" ↔ s = "" ∨ s = "\n" := by
  constructor
  · intro hempty
    by_cases h : s.toList.getLast? = some '\n'
    · have hline := toList_withoutFinalNewline_append h
      rw [hempty] at hline
      exact .inr (String.toList_injective hline.symm)
    · rw [withoutFinalNewline, if_neg h] at hempty
      exact .inl hempty
  · rintro (rfl | rfl)
    · rfl
    · rfl

namespace OpenNode

theorem close_code (properties : Properties) (v : String) :
    close ⟨.code, properties, some v, []⟩ =
      ⟨.code, properties, some (withoutFinalNewline v), []⟩ := by
  rw [← withoutFinalNewline_eq]
  rfl

end OpenNode

namespace Builder

/-- A code block with texts and soft breaks adds one finished node, wherever it stands. -/
theorem run_code (b : Builder) (info : Option String) {inside : List Event}
    (h : ∀ e ∈ inside, (Tag.code info).mayHold e = true) :
    b.run (.start (.code info) :: inside ++ [.stop]) =
      b.add ⟨.code, codeProperties info, some (withoutFinalNewline (wordings inside)), []⟩ := by
  have hstart : b.openTag (.code info) =
      ⟨⟨(Tag.code info).kind, codeProperties info, some "", []⟩, b.stack, b.columns⟩ := rfl
  rw [run_pair, hstart, run_verbatim rfl h, String.empty_append, ← OpenNode.close_code]
  rfl

end Builder

end Doc

namespace Hypertext.Convert

variable (options : ConvertOptions)

theorem exists_one_code (properties : Properties) (v : String) :
    ∃ outer inner, one options ⟨.code, properties, some v, []⟩ =
      [.element ⟨"pre", outer,
        [.element ⟨"code", inner, if v = "" then [] else [.text (v ++ "\n")], none⟩],
        some .code⟩] := by
  obtain ⟨inner, hcontent⟩ := children_codeBlock ⟨.code, properties, some v, []⟩
  refine ⟨(codeBlock ⟨.code, properties, some v, []⟩).properties, inner, ?_⟩
  have hchildren : (if v.isEmpty then [] else [Node.text (v ++ "\n")]) =
      if v = "" then [] else [Node.text (v ++ "\n")] := by
    simp only [String.isEmpty_iff]
  rw [← hchildren, one]
  exact congrArg (fun children => [Node.element ⟨"pre", _, children, some .code⟩]) hcontent

/-- A code block becomes the latest child of the innermost node, whatever was built before. Its
text comes out with its last line ended, in whatever pieces it came, unless nothing or one empty
line is all that there is. -/
theorem one_code_of_run (b : Doc.Builder) (info : Option String) {inside : List Doc.Event}
    (h : ∀ e ∈ inside, (Doc.Tag.code info).mayHold e = true) :
    let s := Doc.wordings inside
    ∃ n : Doc.Node, b.run (.start (.code info) :: inside ++ [.stop]) =
        { b with top := { b.top with latest := n :: b.top.latest } } ∧ n.kind = .code ∧
      ∃ outer inner, one options n =
        [.element ⟨"pre", outer, [.element ⟨"code", inner,
          if s = "" ∨ s = "\n" then [] else [.text (Doc.withFinalNewline s)], none⟩],
          some .code⟩] := by
  intro s
  refine ⟨_, b.run_code info h, rfl, ?_⟩
  have hone := exists_one_code options (Doc.codeProperties info) (Doc.withoutFinalNewline s)
  simp only [Doc.withoutFinalNewline_eq_empty_iff, Doc.withoutFinalNewline_append] at hone
  exact hone

def emptyLines : List Doc.Event := [.text "a", .softBreak, .text "", .softBreak, .text "\n"]

theorem one_code_of_run_emptyLines :
    (∀ e ∈ emptyLines, (Doc.Tag.code (some "rust")).mayHold e = true) ∧
      let b := Doc.Builder.openedItem
      ∃ n : Doc.Node, b.run (.start (.code (some "rust")) :: emptyLines ++ [.stop]) =
          { b with top := { b.top with latest := [n, .leaf .text "b"] } } ∧
        ∃ outer inner, one {} n = [.element ⟨"pre", outer,
          [.element ⟨"code", inner, [.text "a\n\n\n"], none⟩], some .code⟩] := by
  have hpieces : ∀ e ∈ emptyLines, (Doc.Tag.code (some "rust")).mayHold e = true := by decide
  have hwordings : Doc.wordings emptyLines = "a\n\n\n" := by decide
  have hended : Doc.withFinalNewline "a\n\n\n" = "a\n\n\n" := by decide
  obtain ⟨n, hrun, _, hone⟩ :=
    one_code_of_run {} Doc.Builder.openedItem (some "rust") hpieces
  rw [hwordings, hended, if_neg (by decide)] at hone
  exact ⟨hpieces, n, hrun, hone⟩

end Hypertext.Convert

end KeyedMarkup
