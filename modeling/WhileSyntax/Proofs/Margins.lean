import WhileSyntax.Command
import WhileSyntax.Proofs.Keeping
import WhileSyntax.Proofs.Nesting
import WhileSyntax.Proofs.Walking
namespace WhileSyntax

/-! # Margins of accepted indents

A file of settings may ask for any indent that a machine word holds (`Settings.exists_load_iff`). It
is the deepest line that decides whether a tree can be printed with it
(`ParseTree.fits_iff_height`), and how deep this is depends on the tokens of the source. No margin
exceeds a machine word before one exceeds what a text can hold, but the latter happens: a line of
the second level is in every tree of a parse, and the widest indents are too wide for it.
-/

/-! ## Accepted indents -/

namespace Settings

theorem indent_le_of_indent? {v : Toml.Value} {n : Nat} (h : indent? v = some n) :
    n ≤ widestWord := by
  unfold indent? at h
  split at h
  · next i =>
    split_ifs at h with hbounds
    rcases hbounds with ⟨hnonneg, hlt⟩
    obtain rfl := Option.some.inj h
    have hnat : i.toNat < indentBound := (Int.toNat_lt hnonneg).2 hlt
    exact Nat.le_sub_one_of_lt hnat
  · cases h

theorem indent_le_of_ofTable? {t : Toml.Table} {c : Settings} (h : ofTable? t = some c) :
    c.indent ≤ widestWord := by
  rcases Option.bind_eq_some_iff.1 h with ⟨title, -, h⟩
  rcases Option.bind_eq_some_iff.1 h with ⟨format, -, h⟩
  rcases Option.bind_eq_some_iff.1 h with ⟨indent, hindent, h⟩
  obtain rfl := Option.some.inj h
  -- the indent is the default one, or the value of its key
  unfold setting at hindent
  split at hindent
  · obtain rfl := Option.some.inj hindent
    exact (by decide : default.indent ≤ widestWord)
  · exact indent_le_of_indent? hindent

/-- The indent of settings that are loaded is a machine word. -/
theorem indent_le_of_load {read : Reader} {path : String} {c : Settings}
    (h : load read path = .ok (some c)) : c.indent ≤ widestWord := by
  unfold load at h
  split at h
  · cases h
  · cases h
  · split at h
    · cases h
    · next _ d htext =>
      obtain rfl : d = c := Option.some.inj (Except.ok.inj h)
      rcases Option.bind_eq_some_iff.1 htext with ⟨t, -, htable⟩
      exact indent_le_of_ofTable? htable

/-- Settings are loaded with an indent just when it is a machine word. -/
theorem exists_load_iff {indent : Nat} :
    (∃ read path c, load read path = .ok (some c) ∧ c.indent = indent) ↔ indent ≤ widestWord := by
  constructor
  · rintro ⟨read, path, c, hload, rfl⟩
    exact indent_le_of_load hload
  · intro hindent
    -- a document that gives the indent and nothing else is loaded
    have hbound : indent < indentBound := Nat.lt_of_le_pred (by decide) hindent
    have hload : load (fun _ => .ok (String.join ([.indent].map
        (⟨default.title, default.format, indent⟩ : Settings).line))) "" = .ok (some _) :=
      load_lines hbound (by decide) rfl
    exact ⟨_, _, _, hload, rfl⟩

end Settings

/-! ## Heights and margins -/

namespace ParseTree

variable {t : ParseTree} {indent : Nat}

/-- What a text can hold is counted by machine words. -/
theorem fits_iff : t.fits indent = true ↔
    ∀ l ∈ t.outline, l.margin indent ≤ widestWord ∧ l.margin indent ≤ widestMargin := by
  have hwidest : widestMargin ≤ widestWord := by decide
  rw [fits, List.all_eq_true]
  constructor
  · intro hall l hl
    have hmargin := of_decide_eq_true (hall l hl)
    exact ⟨hmargin.trans hwidest, hmargin⟩
  · intro hall l hl
    exact decide_eq_true (hall l hl).2

/-- A tree with a line for every entry fits just when its deepest line does. -/
theorem fits_iff_height (ht : t.outline = t.listing.map Entry.outlineLine) :
    t.fits indent = true ↔ (t.height - 1) * indent ≤ widestMargin := by
  -- each entry has a line, as far from the edge as it is deep
  have hlines : t.fits indent = true ↔ ∀ e ∈ t.listing, (e.depth - 1) * indent ≤ widestMargin := by
    rw [fits, ht, List.all_map, List.all_eq_true]
    exact forall₂_congr fun e _ => decide_eq_true_iff
  rw [hlines]
  constructor
  · intro hall
    by_cases hempty : t.listing = []
    · rw [height, hempty]
      simp
    · rcases exists_depth_eq_height hempty with ⟨e, he, hheight⟩
      rw [← hheight]
      exact hall e he
  · -- a line further up has no greater margin
    intro hheight e he
    have hdepth : e.depth - 1 ≤ t.height - 1 := Nat.sub_le_sub_right (depth_le_height he) 1
    exact (Nat.mul_le_mul_right indent hdepth).trans hheight

end ParseTree

/-- The outline of a parse has a line for every entry of the listing. -/
theorem outline_parseTitled (title source : String) :
    (parseTitled title source).tree.outline =
      (parseTitled title source).tree.listing.map Entry.outlineLine := by
  rw [parseTitled_tree, Assembler.finish_told]
  exact outline_planted (node_empty_not_mem_analyze title ⟨0⟩ (.ofSource source))

/-- The indents that settings may have are the machine words. With each of them, the walk over the
tree of a parse goes into every piece once, and it lowers no counter at zero and computes no margin
that is more than a machine word. It prints the tree and ends with both counters at zero, unless a
margin is more than a text can hold. Whether one is depends on the deepest line alone, which lies at
least on the third level, and at most on the fifth and three more for each token. -/
theorem margins_of_accepted_indents (indent : Nat) :
    ((∃ read path c, Settings.load read path = .ok (some c) ∧ c.indent = indent) ↔
      indent ≤ widestWord) ∧
    (indent ≤ widestWord → ∀ title source : String,
      let p := parseTitled title source
      let deepestFits := (p.tree.height - 1) * indent ≤ ParseTree.widestMargin
      p.tree.visits.filterMap Visit.entered? = p.tree.pieces.map Piece.kind ∧
      ((∀ l ∈ p.tree.outline,
        l.margin indent ≤ widestWord ∧ l.margin indent ≤ ParseTree.widestMargin) ↔ deepestFits) ∧
      (deepestFits → p.tree.print indent = .ok ⟨0, 0, p.tree.render indent⟩) ∧
      (¬ deepestFits → p.tree.print indent = .error .beyondText) ∧
      Command.output? .tree indent p = (p.tree.print indent).toOption.map Printer.text ∧
      3 ≤ p.tree.height ∧ p.tree.height ≤ deepest (scan source).length) := by
  refine ⟨Settings.exists_load_iff, ?_⟩
  intro hindent title source p deepestFits
  have hfits : p.tree.fits indent = true ↔ deepestFits :=
    ParseTree.fits_iff_height (outline_parseTitled title source)
  -- both renderings stop for the same lines, so the walk is told by the outline
  have hprint := p.tree.print_eq hindent
  refine ⟨p.tree.filterMap_entered?_visits, ParseTree.fits_iff.symm.trans hfits, ?_, ?_, ?_,
    height_parseTitled title source⟩
  · intro h
    rw [hprint, if_pos (hfits.2 h)]
  · intro h
    rw [hprint, if_neg fun hfit => h (hfits.1 hfit)]
  · rw [hprint, Command.output?]
    cases p.tree.fits indent <;> rfl

/-- With the widest indent the walk over the tree of the empty source stops at a margin that no text
can hold, and with the indent of the default settings it goes all the way. -/
theorem margins_of_accepted_indents_empty :
    let t := (parseTitled "T" "").tree
    18446744073709551615 ≤ widestWord ∧ t.print 18446744073709551615 = .error .beyondText ∧
      t.print Settings.default.indent =
        .ok ⟨0, 0, "T\nPROGRAM\n  STMT_LIST\n    ε\n  <EOF>\n    \"\"\n"⟩ := by
  intro t
  have hwidest : 18446744073709551615 ≤ widestWord := by decide
  have hheight : t.height = 3 ∧ t.render Settings.default.indent =
      "T\nPROGRAM\n  STMT_LIST\n    ε\n  <EOF>\n    \"\"\n" := by
    decide +kernel
  rcases (margins_of_accepted_indents 18446744073709551615).2 hwidest "T" "" with
    ⟨-, -, -, hstops, -⟩
  rcases (margins_of_accepted_indents Settings.default.indent).2 (by decide) "T" "" with
    ⟨-, -, hends, -⟩
  refine ⟨hwidest, ?_, ?_⟩
  · apply hstops
    show ¬ (t.height - 1) * _ ≤ _
    rw [hheight.1]
    decide
  · rw [← hheight.2]
    apply hends
    show (t.height - 1) * _ ≤ _
    rw [hheight.1]
    decide

/-- Not every indent that settings may have leaves the margins of every tree within what a text can
hold: the widest indent is accepted, and with it already the margin of the second level is too
wide. -/
theorem not_all_accepted_indents_fit :
    ¬ ∀ (read : Reader) (path : String) (c : Settings) (title source : String),
      Settings.load read path = .ok (some c) →
        ∀ l ∈ (parseTitled title source).tree.outline,
          l.margin c.indent ≤ widestWord ∧ l.margin c.indent ≤ ParseTree.widestMargin := by
  intro hall
  have hload : Settings.load (fun _ => .ok "indent = 18446744073709551615") "" =
      .ok (some ⟨defaultTitle, .tree, 18446744073709551615⟩) := by
    decide +kernel
  have hline : ⟨2, "STMT_LIST"⟩ ∈ (parseTitled "T" "").tree.outline := by
    decide +kernel
  -- one level of this indent is more than a text can hold
  have hmargin := (hall _ "" _ "T" "" hload _ hline).2
  exact absurd hmargin (by decide)

end WhileSyntax
