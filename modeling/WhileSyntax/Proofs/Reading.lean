import WhileSyntax.Proofs.Growth
import WhileSyntax.Proofs.Recognition
import WhileSyntax.Proofs.Spacing
namespace WhileSyntax

/-! # How far an accepted source is read

The tree of an accepted source has the lexemes of its tokens up to the first one that looks like the
end of the stream. A blank character that is not layout is such a token, and what stands behind it
is not read at all.
-/

/-! ## The lexemes of a derivation's trees -/

def Entry.lexeme? : Entry → Option String
  | ⟨_, .lexeme text⟩ => some text
  | _ => none

@[simp] theorem Entry.lexeme?_node (depth : Nat) (label : Symbol) :
    Entry.lexeme? ⟨depth, .node label⟩ = none := rfl

@[simp] theorem Entry.lexeme?_lexeme (depth : Nat) (text : String) :
    Entry.lexeme? ⟨depth, .lexeme text⟩ = some text := rfl

@[simp] theorem Entry.lexeme?_empty (depth : Nat) : Entry.lexeme? ⟨depth, .empty⟩ = none := rfl

theorem ParseTree.lexemes_eq (t : ParseTree) :
    t.lexemes = (Tree.entriesOfAll 1 t.children).filterMap Entry.lexeme? := by
  rw [← listing_eq]
  rfl

/-- The lexemes in the trees of a derivation are those of its leaves. -/
theorem Derivation.lexemes_entriesOfAll {xs : List Symbol} (d : Derivation xs) (depth : Nat) :
    (Tree.entriesOfAll depth d.trees).filterMap Entry.lexeme? = d.leaves.map Leaf.text := by
  induction d generalizing depth with
  | nil => rfl
  | terminal l rest ih =>
    simp [trees, leaves, Tree.entriesOfAll, Tree.entries, List.filterMap_cons, ih]
  | @rule xs r rhs hr below rest ihb ihr =>
    -- an empty production has a mark, which is no lexeme
    by_cases hrhs : rhs = []
    · subst hrhs
      cases below
      simp [trees, leaves, Tree.entriesOfAll, Tree.entries, List.filterMap_cons, ihr]
    · simp [trees, leaves, Tree.entriesOfAll, Tree.entries, List.filterMap_cons, hrhs, ihb, ihr]

/-! ## What is read of an accepted source -/

variable {source : String}

/-- The tokens of an accepted source, as far as they are read, are the leaves of a program. -/
theorem exists_derivation_of_accepted (h : (parse source).error = none) :
    ∃ d : Derivation [.rule .program], d.leaves = TokenStream.throughEnd (scan source) ∧
      (parse source).tree = ⟨defaultTitle, d.trees⟩ := by
  obtain ⟨n, _, d, hd⟩ := yields_program_of_accepted h
  obtain ⟨ls, l, hleaves, hl, hls⟩ := d.leaves_of_program
  have hread : (TokenStream.ofSource source).upcoming d.leaves.length = d.leaves := by
    rw [hd, TokenStream.length_upcoming]
  have hthrough := TokenStream.eq_throughEnd_of_upcoming (hd.symm.trans hleaves) hl hls
  exact ⟨d, hleaves.trans hthrough, (d.parseTitled_eq defaultTitle hread).2⟩

/-- The tree of an accepted source has the lexemes of its tokens through the first end of the
stream. -/
theorem lexemes_eq_of_accepted (h : (parse source).error = none) :
    (parse source).tree.lexemes = (TokenStream.throughEnd (scan source)).map Leaf.text := by
  obtain ⟨d, hleaves, htree⟩ := exists_derivation_of_accepted h
  rw [htree, ParseTree.lexemes_eq, d.lexemes_entriesOfAll, hleaves]

/-- All tokens of a source are seen just when its only blank characters are layout. -/
theorem throughEnd_scan_iff (source : String) :
    (TokenStream.throughEnd (scan source)).map Leaf.text = (scan source).map Token.text ++ [""] ↔
      ∀ c ∈ source.toList, Text.isBlank c = true → Text.isLayout c = true := by
  have hsource := exists_endOfStream_scan_iff source
  constructor
  · intro hall c hc hblank
    cases hlayout : Text.isLayout c with
    | true => rfl
    | false =>
      -- a blank character that is no layout ends the leaves too early for the last one to fit
      have hshort := TokenStream.length_throughEnd_le (hsource.2 ⟨c, hc, hblank, hlayout⟩)
      have hlength := congrArg List.length hall
      simp only [List.length_map, List.length_append, List.length_cons, List.length_nil] at hlength
      omega
  · intro hlayout
    -- otherwise no token is an end of the stream
    have hnone : ∀ t ∈ scan source, t.kind ≠ .endOfStream := by
      intro t ht hkind
      obtain ⟨c, hc, hblank, hnot⟩ := hsource.1 ⟨t, ht, hkind⟩
      simp [hlayout c hc hblank] at hnot
    rw [TokenStream.throughEnd_eq_append hnone]
    simp [TokenStream.endLeaf, Function.comp_def, Token.leaf]

/-! ## A source that is not read to its end -/

/-- A program, and behind a no-break space a keyword that no statement begins with. -/
def strayKeyword : String :=
  "read x \u00a0 fi"

theorem map_leaf_scan_strayKeyword :
    (scan strayKeyword).map Token.leaf = [⟨.readWord, "read"⟩, ⟨.identifier, "x"⟩,
      ⟨.endOfStream, "\u00a0"⟩, ⟨.fiWord, "fi"⟩] := by
  -- the no-break space is a lexeme of its own, between spaces
  have hwrites : Writes ["read", "x", "\u00a0", "fi"] strayKeyword := by
    have hgap : IsGap [' '] := by decide
    have hfi : Spaced ["fi"] ("fi".toList ++ []) := .last "fi" (by decide)
    have hblank := Spaced.more "\u00a0" hgap (by decide) hfi
    have hx := Spaced.more "x" hgap (by decide) hblank
    exact ⟨[], strayKeyword.toList, rfl, by decide, .more "read" hgap (by decide) hx⟩
  have hlexemes : ∀ s ∈ ["read", "x", "\u00a0", "fi"], IsLexeme s.toList := by
    decide +kernel
  rw [hwrites.map_leaf_scan hlexemes]
  decide +kernel

theorem parse_strayKeyword :
    (parse strayKeyword).error = none ∧
      (parse strayKeyword).tree.lexemes = ["read", "x", "\u00a0"] := by
  have hscan := map_leaf_scan_strayKeyword
  -- the no-break space is taken for the end, so three leaves are a program
  have hread : (TokenStream.ofSource strayKeyword).upcoming 3 =
      (Derivation.readX "\u00a0").leaves := by
    have hlength : (scan strayKeyword).length = 4 := by
      simpa using congrArg List.length hscan
    have hremaining : (TokenStream.ofSource strayKeyword).remaining = scan strayKeyword := rfl
    rw [TokenStream.upcoming_eq, List.map_take, hremaining, hscan, hlength]
    rfl
  obtain ⟨herror, htree⟩ := (Derivation.readX "\u00a0").parseTitled_eq defaultTitle hread
  refine ⟨herror, ?_⟩
  rw [parse, htree, ParseTree.lexemes_eq, Derivation.lexemes_entriesOfAll]
  rfl

/-! ## Which sources are read to their end -/

/-- An accepted source is read through the first token that looks like the end of the stream. That
is all of it just when its only blank characters are layout. -/
theorem lexemes_of_accepted (h : (parse source).error = none) :
    (parse source).tree.lexemes = (TokenStream.throughEnd (scan source)).map Leaf.text ∧
      ((parse source).tree.lexemes = (scan source).map Token.text ++ [""] ↔
        ∀ c ∈ source.toList, Text.isBlank c = true → Text.isLayout c = true) := by
  have hlexemes := lexemes_eq_of_accepted h
  refine ⟨hlexemes, ?_⟩
  rw [hlexemes]
  exact throughEnd_scan_iff source

/-- The source with the stray keyword has a blank character that is not layout. -/
theorem lexemes_of_accepted_strayKeyword :
    (parse strayKeyword).error = none ∧
      (parse strayKeyword).tree.lexemes =
        (TokenStream.throughEnd (scan strayKeyword)).map Leaf.text ∧
      ((parse strayKeyword).tree.lexemes = (scan strayKeyword).map Token.text ++ [""] ↔
        ∀ c ∈ strayKeyword.toList, Text.isBlank c = true → Text.isLayout c = true) := by
  obtain ⟨herror, _⟩ := parse_strayKeyword
  exact ⟨herror, lexemes_of_accepted herror⟩

/-- Not every accepted source is read to its end. -/
theorem not_all_accepted_read :
    ¬ ∀ source : String, (parse source).error = none →
      (parse source).tree.lexemes = (scan source).map Token.text ++ [""] := by
  intro hall
  obtain ⟨herror, hlexemes⟩ := parse_strayKeyword
  have hcount := congrArg List.length map_leaf_scan_strayKeyword
  have hlength := congrArg List.length (hall strayKeyword herror)
  rw [List.length_map] at hcount
  rw [hlexemes, List.length_append, List.length_map, hcount] at hlength
  exact absurd hlength (by decide)

end WhileSyntax
