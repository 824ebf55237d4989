import Mathlib.Algebra.GroupWithZero.Nat
import StepRunner.Proofs.Step.Registry

namespace StepRunner

namespace StepText

/-- Some `<` of the text is closed after it. -/
def HasName (text : List Char) : Prop :=
  ∃ before name after, text = before ++ '<' :: (name ++ '>' :: after)

/-- Literal text, and the name of the parameter after it. -/
structure Piece where
  literal : List Char
  name : List Char
  literal_plain : '<' ∉ literal
  name_closed : '>' ∉ name

/-- A text in pieces, up to the literal text after the last name. -/
structure Cut where
  pieces : List Piece
  last : List Char
  last_plain : ¬ HasName last

namespace Piece

/-- The piece as it stands in the text. -/
def written (piece : Piece) : List Char := piece.literal ++ '<' :: (piece.name ++ ['>'])

/-- The piece with a placeholder for its name. -/
def normalized (piece : Piece) : List Char := piece.literal ++ placeholder

theorem written_append (piece : Piece) (rest : List Char) :
    piece.written ++ rest = piece.literal ++ '<' :: (piece.name ++ '>' :: rest) := by
  simp [written]

end Piece

namespace Cut

/-- The text that was cut. -/
def written (cut : Cut) : List Char := cut.pieces.flatMap Piece.written ++ cut.last

def normalized (cut : Cut) : List Char := cut.pieces.flatMap Piece.normalized ++ cut.last

/-- All that stands outside the names. -/
def literals (cut : Cut) : List (List Char) := cut.pieces.map Piece.literal ++ [cut.last]

/-- The cut with a piece before it. -/
def cons (piece : Piece) (cut : Cut) : Cut := { cut with pieces := piece :: cut.pieces }

theorem written_cons (piece : Piece) (cut : Cut) :
    (cut.cons piece).written = piece.written ++ cut.written := by
  rw [written, cons, List.flatMap_cons, List.append_assoc]
  rfl

end Cut

section

variable {α : Type} {value : α} {before after first second rest others : List α}

/-- What comes after some place of a value comes after the first. -/
theorem suffix_of_append_cons_eq (hfirst : value ∉ first)
    (h : before ++ value :: after = first ++ value :: rest) : after <:+ rest := by
  rcases List.append_eq_append_iff.mp h with ⟨more, rfl, hmore⟩ | ⟨more, -, hmore⟩
  · cases more with
    | nil =>
      obtain ⟨-, rfl⟩ := List.cons.inj hmore
      exact List.suffix_refl _
    | cons head more =>
      obtain ⟨rfl, -⟩ := List.cons.inj hmore
      simp at hfirst
  · cases more with
    | nil =>
      obtain ⟨-, rfl⟩ := List.cons.inj hmore
      exact List.suffix_refl _
    | cons head more =>
      obtain ⟨-, rfl⟩ := List.cons.inj hmore
      exact ⟨more ++ [value], by simp⟩

theorem eq_of_append_cons_eq (hfirst : value ∉ first) (hsecond : value ∉ second)
    (h : first ++ value :: rest = second ++ value :: others) : first = second ∧ rest = others := by
  have hrest : rest <:+ others := suffix_of_append_cons_eq hsecond h
  have hothers : others <:+ rest := suffix_of_append_cons_eq hfirst h.symm
  obtain rfl : rest = others := hrest.eq_of_length_le hothers.length_le
  exact ⟨List.append_cancel_right h, rfl⟩

theorem Piece.eq_of_written_append_eq {piece other : Piece} {rest others : List Char}
    (h : piece.written ++ rest = other.written ++ others) : piece = other ∧ rest = others := by
  obtain ⟨literal, name, hliteral, hname⟩ := piece
  obtain ⟨literal', name', hliteral', hname'⟩ := other
  rw [written_append, written_append] at h
  obtain ⟨rfl, hafter⟩ := eq_of_append_cons_eq hliteral hliteral' h
  obtain ⟨rfl, hrest⟩ := eq_of_append_cons_eq hname hname' hafter
  exact ⟨rfl, hrest⟩

/-- A text that is cut into a piece and more has a name in it. -/
theorem Piece.hasName (piece : Piece) (rest : List Char) : HasName (piece.written ++ rest) :=
  ⟨piece.literal, piece.name, rest, piece.written_append rest⟩

theorem Cut.eq_of_written_eq {cut other : Cut} (h : cut.written = other.written) : cut = other := by
  obtain ⟨pieces, last, hlast⟩ := cut
  obtain ⟨pieces', last', hlast'⟩ := other
  induction pieces generalizing pieces' with
  | nil =>
    cases pieces' with
    | nil =>
      obtain rfl : last = last' := h
      rfl
    | cons piece pieces' =>
      have hname := piece.hasName (written ⟨pieces', last', hlast'⟩)
      rw [← written_cons, Cut.cons, ← h] at hname
      exact absurd hname hlast
  | cons piece pieces ih =>
    cases pieces' with
    | nil =>
      have hname := piece.hasName (written ⟨pieces, last, hlast⟩)
      rw [← written_cons, Cut.cons, h] at hname
      exact absurd hname hlast'
    | cons piece' pieces' =>
      have hwritten : piece.written ++ written ⟨pieces, last, hlast⟩ =
          piece'.written ++ written ⟨pieces', last', hlast'⟩ := by
        rw [← written_cons, ← written_cons]
        exact h
      obtain ⟨rfl, hrest⟩ := Piece.eq_of_written_append_eq hwritten
      have hcut := ih pieces' hrest
      simp only [mk.injEq] at hcut ⊢
      exact ⟨congrArg _ hcut.1, hcut.2⟩

end

/-- What is closed after some `<` is closed after the first. -/
theorem exists_piece_of_hasName {text : List Char} (h : HasName text) :
    ∃ (piece : Piece) (rest : List Char), text = piece.written ++ rest := by
  obtain ⟨before, name, after, rfl⟩ := h
  obtain ⟨literal, opened, htext, hliteral⟩ := List.eq_append_cons_of_mem
    (show '<' ∈ before ++ '<' :: (name ++ '>' :: after) by simp)
  have hmem : '>' ∈ opened := (suffix_of_append_cons_eq hliteral htext).subset (by simp)
  obtain ⟨first, rest, rfl, hfirst⟩ := List.eq_append_cons_of_mem hmem
  refine ⟨⟨literal, first, hliteral, hfirst⟩, rest, ?_⟩
  rw [Piece.written_append, htext]

theorem exists_cut (text : List Char) : ∃ cut : Cut, cut.written = text := by
  induction hn : text.length using Nat.strongRecOn generalizing text with
  | ind n ih =>
    by_cases hname : HasName text
    · obtain ⟨piece, rest, rfl⟩ := exists_piece_of_hasName hname
      have hlt : rest.length < n := by
        rw [← hn, Piece.written_append]
        simp only [List.length_append, List.length_cons]
        omega
      obtain ⟨cut, rfl⟩ := ih rest.length hlt rest rfl
      exact ⟨cut.cons piece, cut.written_cons piece⟩
    · exact ⟨⟨[], text, hname⟩, rfl⟩

theorem scan_name_of_open {text : List Char} (h : '>' ∉ text) (name : List Char) :
    scan (some name) text = '<' :: (name.reverse ++ text) := by
  induction text generalizing name with
  | nil => simp [scan]
  | cons c text ih =>
    obtain ⟨hc, htext⟩ := List.ne_and_not_mem_of_not_mem_cons h
    rw [scan, if_neg hc.symm, ih htext, List.reverse_cons, List.append_assoc]
    rfl

theorem scan_name_append {name : List Char} (h : '>' ∉ name) (before rest : List Char) :
    scan (some before) (name ++ '>' :: rest) = placeholder ++ scan none rest := by
  induction name generalizing before with
  | nil => simp [scan]
  | cons c name ih =>
    obtain ⟨hc, hname⟩ := List.ne_and_not_mem_of_not_mem_cons h
    rw [List.cons_append, scan, if_neg hc.symm, ih hname]

theorem normalize_append_of_plain {literal : List Char} (h : '<' ∉ literal) (rest : List Char) :
    normalize (literal ++ rest) = literal ++ normalize rest := by
  induction literal with
  | nil => rfl
  | cons c literal ih =>
    obtain ⟨hc, hliteral⟩ := List.ne_and_not_mem_of_not_mem_cons h
    rw [List.cons_append, normalize, scan, if_neg hc.symm]
    exact congrArg _ (ih hliteral)

theorem normalize_append_piece (piece : Piece) (rest : List Char) :
    normalize (piece.written ++ rest) = piece.normalized ++ normalize rest := by
  have hname : normalize ('<' :: (piece.name ++ '>' :: rest)) = placeholder ++ normalize rest :=
    scan_name_append piece.name_closed [] rest
  rw [piece.written_append, normalize_append_of_plain piece.literal_plain, hname, Piece.normalized,
    List.append_assoc]

/-- A text without names stays as it is. -/
theorem normalize_of_not_hasName {text : List Char} (h : ¬ HasName text) : normalize text = text := by
  by_cases hmem : '<' ∈ text
  · obtain ⟨literal, opened, rfl, hliteral⟩ := List.eq_append_cons_of_mem hmem
    have hopened : '>' ∉ opened := by
      intro hclosed
      obtain ⟨name, after, rfl⟩ := List.append_of_mem hclosed
      exact h ⟨literal, name, after, rfl⟩
    have hstays : normalize ('<' :: opened) = '<' :: opened := scan_name_of_open hopened []
    rw [normalize_append_of_plain hliteral, hstays]
  · have hall := normalize_append_of_plain hmem []
    rw [List.append_nil] at hall
    exact hall.trans (List.append_nil text)

theorem Cut.normalize_written (cut : Cut) : normalize cut.written = cut.normalized := by
  obtain ⟨pieces, last, hlast⟩ := cut
  induction pieces with
  | nil => exact normalize_of_not_hasName hlast
  | cons piece pieces ih =>
    have hrest : normalize (written ⟨pieces, last, hlast⟩) = normalized ⟨pieces, last, hlast⟩ := ih
    have hwritten : written ⟨piece :: pieces, last, hlast⟩ =
        piece.written ++ written ⟨pieces, last, hlast⟩ := written_cons piece ⟨pieces, last, hlast⟩
    rw [hwritten, normalize_append_piece, hrest, normalized, normalized, List.flatMap_cons,
      List.append_assoc]

/-- A placeholder begins in front of another only where it would begin without it. -/
theorem isPrefixOf_append_placeholder (c : Char) (before after : List Char) :
    placeholder.isPrefixOf (c :: (before ++ (placeholder ++ after))) =
      placeholder.isPrefixOf (c :: before) := by
  cases before <;> simp [placeholder, List.isPrefixOf]

/-- Whatever stands around a placeholder, it is one, and makes no other. -/
theorem occurrences_append_placeholder (before after : List Char) :
    occurrences (before ++ (placeholder ++ after)) =
      occurrences before + 1 + occurrences after := by
  induction before with
  | nil => simp [occurrences, placeholder, List.isPrefixOf]
  | cons c before ih =>
    rw [List.cons_append, occurrences, isPrefixOf_append_placeholder, ih, occurrences]
    omega

theorem Cut.occurrences_normalized (cut : Cut) :
    occurrences cut.normalized = cut.pieces.length + (cut.literals.map occurrences).sum := by
  obtain ⟨pieces, last, hlast⟩ := cut
  induction pieces with
  | nil => simp [normalized, literals]
  | cons piece pieces ih =>
    have hcount := occurrences_append_placeholder piece.literal
      (normalized ⟨pieces, last, hlast⟩)
    have hnormalized : normalized ⟨piece :: pieces, last, hlast⟩ =
        piece.literal ++ (placeholder ++ normalized ⟨pieces, last, hlast⟩) := by
      simp only [normalized, Piece.normalized, List.flatMap_cons, List.append_assoc]
    rw [hnormalized, hcount, ih]
    simp only [literals, List.map_cons, List.cons_append, List.sum_cons, List.length_cons]
    omega

/-- **A text is cut at its named parameters in one way.** A step has a parameter for each of them
and for each placeholder that was written out. -/
theorem exists_unique_cut (text : String) (body : List String → Action (Except HookError Unit)) :
    ∃ cut : Cut, cut.written = text.toList ∧
      (∀ other : Cut, other.written = text.toList → other = cut) ∧
      (Step.ofText text body).text = String.ofList cut.normalized ∧
      (Step.ofText text body).arity =
        cut.pieces.length + (cut.literals.map occurrences).sum := by
  obtain ⟨cut, hcut⟩ := exists_cut text.toList
  have htext : (Step.ofText text body).text = String.ofList cut.normalized := by
    rw [Step.ofText, ← hcut, cut.normalize_written]
  refine ⟨cut, hcut, ?_, htext, ?_⟩
  · intro other hother
    exact Cut.eq_of_written_eq (hother.trans hcut.symm)
  · rw [Step.arity, htext, String.toList_ofList, arity_eq_occurrences, cut.occurrences_normalized]

/-- A `>` that closes nothing, a `<` inside a name, braces around names, and a `<` left open. -/
example : normalize "a> \x7b<x <y>\x7d<z> < b".toList = "a> \x7b\x7b\x7d\x7d\x7b\x7d < b".toList ∧
    arity (normalize "a> \x7b<x <y>\x7d<z> < b".toList) = 2 := by
  decide

end StepText

end StepRunner
