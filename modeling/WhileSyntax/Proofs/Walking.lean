import WhileSyntax.Proofs.Contents
namespace WhileSyntax

/-! # The walk that prints a tree

A tree is printed on a walk over the stored tree, which enters and leaves each of its nodes and
texts. Two counters go with the walk: in how many pieces it is, and how many of these are folded.
They are machine words, and so is the margin of a line, a product of depth and indent. The walk
stops where a number is not what it should be (`Mishap`).

That can only be a margin that no text holds. The counters go down as often as they went up. What is
above a line was printed before it, so one indent less fits into a text, and then the product fits
into a word (`margin_le_widestWord`). A walk that is not stopped prints the outline and ends with
both counters at zero (`ParseTree.print_eq`).
-/

/-! ## Walks -/

/-- What a walk does at a node or a text of a stored tree. -/
inductive Visit where
  /-- It enters the piece, which covers this text. -/
  | enter (kind : PieceKind) (text : String)
  /-- It leaves the piece. -/
  | leave (kind : PieceKind)
  deriving DecidableEq, Repr

/-- The kind of the piece that is entered. -/
def Visit.entered? : Visit → Option PieceKind
  | .enter kind _ => some kind
  | .leave _ => none

namespace Tree

def textOf (row : List Tree) : String :=
  String.join ((elementsOf row).map Element.text)

mutual

/-- The walk over a tree: into its top, over what is below, and out again. -/
def visits : Tree → List Visit
  | .node label children =>
    .enter (.ofSymbol label) (textOf children) ::
      (visitsOf children ++ [.leave (.ofSymbol label)])
  | .lexeme text => [.enter .lexeme text, .leave .lexeme]
  | .empty =>
    [.enter (.wrapper .empty) "", .enter .epsilon "", .leave .epsilon, .leave (.wrapper .empty)]
  | .error message =>
    [.enter .error message, .enter .errorMessage message, .leave .errorMessage, .leave .error]

def visitsOf : List Tree → List Visit
  | [] => []
  | t :: ts => t.visits ++ visitsOf ts

end

end Tree

/-- The walk over a stored tree, from its root and back. -/
def ParseTree.visits (t : ParseTree) : List Visit :=
  .enter .root t.text :: (Tree.visitsOf t.children ++ [.leave .root])

/-! ## Machine words -/

/-- The greatest number that a machine word holds. -/
def widestWord : Nat :=
  Nat.pow 2 64 - 1

/-- What can go wrong with the numbers of a walk. -/
inductive Mishap where
  /-- A counter that is at zero would be lowered. -/
  | belowZero
  /-- A product would be more than a machine word holds. -/
  | beyondWord
  /-- A margin would be more than a text holds. -/
  | beyondText
  deriving DecidableEq, Repr

def lowered (n : Nat) : Except Mishap Nat :=
  if n = 0 then .error .belowZero else .ok (n - 1)

def product (a b : Nat) : Except Mishap Nat :=
  if a * b ≤ widestWord then .ok (a * b) else .error .beyondWord

def spaces (width : Nat) : Except Mishap String :=
  if width ≤ ParseTree.widestMargin then .ok (String.ofList (List.replicate width ' '))
  else .error .beyondText

/-! ## Printing -/

/-- What is printed where a walk enters a piece that covers the text, unless the piece is in a
folded one. -/
def PieceKind.line? (text : String) : PieceKind → Option String
  | .wrapper .empty => some "ε"
  | .error => some ("ERROR: " ++ text)
  | .wrapper k => some ("<" ++ k.label ++ ">")
  | .rule r => some r.name
  | .lexeme => some (Text.quote text)
  | .root | .epsilon | .errorMessage => none

/-- Whether what is in the piece stays unprinted. -/
def PieceKind.isFolded : PieceKind → Bool
  | .wrapper .empty | .error => true
  | _ => false

/-- How far a tree has been printed: in how many pieces the walk is, how many of these are folded,
and the text so far. -/
structure Printer where
  depth : Nat
  folds : Nat
  text : String
  deriving DecidableEq, Repr

namespace Printer

/-- Prints a line with its margin. The root, at depth 0, has no part in the margin. -/
def put (indent : Nat) (p : Printer) (line : String) : Except Mishap Printer := do
  let width ← product (p.depth - 1) indent
  let margin ← spaces width
  .ok { p with text := p.text ++ (margin ++ line) ++ "\n" }

def descend (kind : PieceKind) (p : Printer) : Printer :=
  ⟨p.depth + 1, if kind.isFolded then p.folds + 1 else p.folds, p.text⟩

def ascend (kind : PieceKind) (p : Printer) : Except Mishap Printer := do
  let folds ← if kind.isFolded then lowered p.folds else .ok p.folds
  let depth ← lowered p.depth
  .ok ⟨depth, folds, p.text⟩

/-- Prints what a visit asks for, and counts it. -/
def step (indent : Nat) (p : Printer) : Visit → Except Mishap Printer
  | .enter kind text =>
    match if p.folds = 0 then kind.line? text else none with
    | some line => (p.put indent line).map (descend kind)
    | none => .ok (p.descend kind)
  | .leave kind => p.ascend kind

def run (indent : Nat) (p : Printer) (walk : List Visit) : Except Mishap Printer :=
  walk.foldlM (step indent) p

end Printer

/-- Prints a tree on a walk from the root, behind its title. -/
def ParseTree.print (t : ParseTree) (indent : Nat) : Except Mishap Printer :=
  Printer.run indent ⟨0, 0, t.title ++ "\n"⟩ t.visits

/-! ## The pieces of a walk -/

theorem filterMap_entered?_through (kind : PieceKind) (text : String) (inner : List Visit) :
    (.enter kind text :: (inner ++ [.leave kind])).filterMap Visit.entered? =
      kind :: inner.filterMap Visit.entered? := by
  have henter : (Visit.enter kind text).entered? = some kind := rfl
  have hleave : [Visit.leave kind].filterMap Visit.entered? = [] := rfl
  rw [List.filterMap_cons_some henter, List.filterMap_append, hleave, List.append_nil]

theorem Tree.filterMap_entered?_visitsOf (row : List Tree) :
    (visitsOf row).filterMap Visit.entered? =
      ((elementsOf row).flatMap Element.parts).map Prod.fst := by
  match row with
  | [] => rfl
  | t :: right =>
    have htop : t.visits.filterMap Visit.entered? =
        (t.elements.flatMap Element.parts).map Prod.fst := by
      cases t with
      | node label children =>
        have hchildren := filterMap_entered?_visitsOf children
        rw [visits, filterMap_entered?_through, hchildren]
        rfl
      | _ => rfl
    have hright := filterMap_entered?_visitsOf right
    rw [visitsOf, elementsOf, List.filterMap_append, htop, hright, List.flatMap_append,
      List.map_append]
  termination_by sizeOf row

/-- A walk enters each piece of the stored tree once, in preorder. -/
theorem ParseTree.filterMap_entered?_visits (t : ParseTree) :
    t.visits.filterMap Visit.entered? = t.pieces.map Piece.kind := by
  have hkinds : t.pieces.map Piece.kind = (t.pieces.map Piece.part).map Prod.fst := by
    rw [List.map_map]
    rfl
  rw [hkinds, map_part_pieces, visits, filterMap_entered?_through,
    Tree.filterMap_entered?_visitsOf, List.map_cons]

/-! ## Steps -/

namespace Printer

variable {indent : Nat} {p : Printer} {kind : PieceKind} {text line : String}

theorem run_cons (indent : Nat) (p : Printer) (v : Visit) (walk : List Visit) :
    run indent p (v :: walk) = (p.step indent v).bind fun q => run indent q walk :=
  List.foldlM_cons

theorem run_append (indent : Nat) (p : Printer) (walk rest : List Visit) :
    run indent p (walk ++ rest) = (run indent p walk).bind fun q => run indent q rest :=
  List.foldlM_append

/-- Coming out of a piece undoes going into it, whatever was printed in between. -/
theorem ascend_descend (kind : PieceKind) (p : Printer) (text : String) :
    ascend kind { p.descend kind with text := text } = .ok { p with text := text } := by
  cases hfolded : kind.isFolded with
  | true => simp [ascend, descend, lowered, hfolded, bind, Except.bind]
  | false => simp [ascend, descend, lowered, hfolded, bind, Except.bind]

/-- A line is printed where a walk enters a piece outside of folded ones. -/
theorem step_enter (hline : kind.line? text = some line) (hfolds : p.folds = 0) :
    p.step indent (.enter kind text) = (p.put indent line).map (descend kind) := by
  simp only [step, if_pos hfolds, hline]

/-- In a folded piece, and where there is no line, nothing is printed. -/
theorem step_enter_quiet (h : p.folds ≠ 0 ∨ kind.line? text = none) :
    p.step indent (.enter kind text) = .ok (p.descend kind) := by
  have hnone : (if p.folds = 0 then kind.line? text else none) = none := by
    rcases h with hfolds | hline
    · rw [if_neg hfolds]
    · rw [hline, ite_self]
  simp only [step, hnone]

/-- A piece in a folded one is in a folded one. -/
theorem folds_descend_ne_zero (h : p.folds ≠ 0 ∨ kind.isFolded = true) :
    (p.descend kind).folds ≠ 0 := by
  unfold descend
  cases hkind : kind.isFolded with
  | true => simp
  | false =>
    rw [hkind] at h
    simpa using h

end Printer

/-! ## Lines that are printed in a row -/

/-- One indent more than a text can hold is still a machine word. -/
theorem margin_le_widestWord {indent depth : Nat} (hindent : indent ≤ widestWord)
    (habove : (depth - 1 - 1) * indent ≤ ParseTree.widestMargin) :
    (depth - 1) * indent ≤ widestWord := by
  rcases hdepth : depth - 1 with _ | _ | k
  · simp
  · simpa using hindent
  · -- the indent itself is no wider than the margin above
    rw [hdepth] at habove
    have hsplit : (k + 1 + 1) * indent = (k + 1 + 1 - 1) * indent + indent := by
      rw [Nat.succ_mul, Nat.add_sub_cancel]
    have hle : indent ≤ (k + 1 + 1 - 1) * indent := Nat.le_mul_of_pos_left indent (Nat.succ_pos k)
    have hbounds : ParseTree.widestMargin + ParseTree.widestMargin ≤ widestWord := by decide
    omega

namespace Printer

variable {indent : Nat} {p : Printer} {kind : PieceKind} {text line : String}

/-- Whether each of the lines has a margin that a text can hold. -/
def fitting (indent : Nat) (lines : List OutlineLine) : Bool :=
  lines.all fun l => l.margin indent ≤ ParseTree.widestMargin

theorem fitting_singleton (indent depth : Nat) (line : String) :
    fitting indent [⟨depth, line⟩] = decide ((depth - 1) * indent ≤ ParseTree.widestMargin) :=
  Bool.and_true _

/-- Prints lines one after the other, unless one of them does not fit. -/
def putAll (indent : Nat) (p : Printer) (lines : List OutlineLine) : Except Mishap Printer :=
  if fitting indent lines then
    .ok { p with text := lines.foldl (fun text l => text ++ l.render indent ++ "\n") p.text }
  else .error .beyondText

theorem putAll_append (indent : Nat) (p : Printer) (own more : List OutlineLine) :
    p.putAll indent (own ++ more) = (p.putAll indent own).bind fun q => q.putAll indent more := by
  have hfitting : fitting indent (own ++ more) = (fitting indent own && fitting indent more) :=
    List.all_append
  unfold putAll
  rw [hfitting, List.foldl_append]
  cases fitting indent own with
  | false => rfl
  | true => cases fitting indent more <;> rfl

/-- Coming out of a piece, only the lines that were printed in it are left. -/
theorem ascend_putAll (kind : PieceKind) (p : Printer) (lines : List OutlineLine) :
    ((p.descend kind).putAll indent lines).bind (ascend kind) = p.putAll indent lines := by
  unfold putAll
  cases fitting indent lines with
  | false => rfl
  | true => exact ascend_descend kind p _

/-- A walk into a piece and out again prints what is printed on entering it and what is printed in
it. -/
theorem run_through (own more : List OutlineLine) (inner : List Visit)
    (henter : p.step indent (.enter kind text) = (p.putAll indent own).map (descend kind))
    (hinner : fitting indent own = true → ∀ text, let q := descend kind { p with text := text }
      run indent q inner = q.putAll indent more) :
    run indent p (.enter kind text :: (inner ++ [.leave kind])) =
      p.putAll indent (own ++ more) := by
  -- leaving is the last step, so its outcome is that of the run
  have hleave : ∀ q, run indent q [.leave kind] = q.ascend kind := by
    intro q
    rw [run_cons]
    show (q.ascend kind).bind .ok = _
    cases q.ascend kind <;> rfl
  rw [putAll_append, run_cons, henter]
  cases hown : fitting indent own with
  -- the own lines do not fit: nothing behind them is run
  | false => simp [putAll, hown, Except.bind, Except.map]
  | true =>
    have hput : p.putAll indent own = .ok _ := if_pos hown
    rw [hput]
    show run indent (descend kind _) (inner ++ [.leave kind]) = putAll indent _ more
    rw [run_append, hinner hown, funext hleave, ascend_putAll]

/-- In a folded piece, a walk into another one and out again prints nothing. -/
theorem run_through_folded (inner : List Visit) (hp : p.folds ≠ 0)
    (hinner : ∀ q : Printer, q.folds ≠ 0 → run indent q inner = .ok q) :
    run indent p (.enter kind text :: (inner ++ [.leave kind])) = .ok p := by
  refine run_through [] [] inner (step_enter_quiet (.inl hp)) ?_
  intro _ text
  exact hinner _ (folds_descend_ne_zero (.inl hp))

theorem run_text_folded (hp : p.folds ≠ 0) :
    run indent p [.enter kind text, .leave kind] = .ok p :=
  run_through_folded [] hp fun _ _ => rfl

/-- With a margin above that fits, a line is printed unless its own margin does not fit. -/
theorem put_eq (hindent : indent ≤ widestWord)
    (habove : (p.depth - 1 - 1) * indent ≤ ParseTree.widestMargin) (line : String) :
    p.put indent line = p.putAll indent [⟨p.depth, line⟩] := by
  have hword := margin_le_widestWord hindent habove
  unfold put putAll product spaces
  rw [if_pos hword, fitting_singleton]
  by_cases hfits : (p.depth - 1) * indent ≤ ParseTree.widestMargin
  · simp only [bind, Except.bind, hfits, if_true, decide_true]
    rfl
  · simp only [bind, Except.bind, hfits, if_false, decide_false, Bool.false_eq_true]

/-- A walk into a piece with a line, below a margin that fits, prints this line and then what is
printed in it. -/
theorem run_through_line (hindent : indent ≤ widestWord) (hp : p.folds = 0)
    (habove : (p.depth - 1 - 1) * indent ≤ ParseTree.widestMargin)
    (hline : kind.line? text = some line) (more : List OutlineLine) (inner : List Visit)
    (hinner : (p.depth - 1) * indent ≤ ParseTree.widestMargin → ∀ printed,
      let q := descend kind { p with text := printed }
      run indent q inner = q.putAll indent more) :
    run indent p (.enter kind text :: (inner ++ [.leave kind])) =
      p.putAll indent (⟨p.depth, line⟩ :: more) := by
  refine run_through [⟨p.depth, line⟩] more inner ?_ ?_
  · rw [step_enter hline hp, put_eq hindent habove]
  · intro hfits
    rw [fitting_singleton] at hfits
    exact hinner (of_decide_eq_true hfits)

/-- A walk into a folded piece with a line prints this line only. -/
theorem run_through_line_folded (hindent : indent ≤ widestWord) (hp : p.folds = 0)
    (habove : (p.depth - 1 - 1) * indent ≤ ParseTree.widestMargin)
    (hline : kind.line? text = some line) (hkind : kind.isFolded = true) (inner : List Visit)
    (hinner : ∀ q : Printer, q.folds ≠ 0 → run indent q inner = .ok q) :
    run indent p (.enter kind text :: (inner ++ [.leave kind])) =
      p.putAll indent [⟨p.depth, line⟩] := by
  refine run_through_line hindent hp habove hline [] inner ?_
  intro _ printed
  exact hinner _ (folds_descend_ne_zero (.inr hkind))

end Printer

/-! ## Walks over rows of trees -/

theorem PieceKind.line?_ofSymbol (label : Symbol) (text : String) :
    line? text (ofSymbol label) = some (Element.node label).line := by
  rcases label with k | r
  · cases k <;> rfl
  · rfl

theorem PieceKind.isFolded_ofSymbol (label : Symbol) :
    (ofSymbol label).isFolded = (Element.node label).isFolded := by
  rcases label with k | r
  · cases k <;> rfl
  · rfl

/-- A walk over trees in a folded piece prints nothing and ends as it began. -/
theorem Tree.run_visitsOf_folded {indent : Nat} (row : List Tree) :
    ∀ p : Printer, p.folds ≠ 0 → Printer.run indent p (visitsOf row) = .ok p := by
  intro p hp
  match row with
  | [] => rfl
  | t :: right =>
    have htop : Printer.run indent p t.visits = .ok p := by
      cases t with
      | node label children =>
        exact Printer.run_through_folded _ hp (run_visitsOf_folded children)
      | lexeme text => exact Printer.run_text_folded hp
      | empty =>
        exact Printer.run_through_folded [.enter .epsilon "", .leave .epsilon] hp
          fun _ => Printer.run_text_folded
      | error message =>
        exact Printer.run_through_folded [.enter .errorMessage message, .leave .errorMessage] hp
          fun _ => Printer.run_text_folded
    rw [visitsOf, Printer.run_append, htop]
    exact run_visitsOf_folded right p hp
  termination_by sizeOf row

/-- Outside of folded pieces, and below a margin that fits, a walk over a row of trees prints the
lines of the row. -/
theorem Tree.run_visitsOf {indent : Nat} (hindent : indent ≤ widestWord) (row : List Tree) :
    ∀ p : Printer, p.folds = 0 → (p.depth - 1 - 1) * indent ≤ ParseTree.widestMargin →
      Printer.run indent p (visitsOf row) = p.putAll indent (linesOf p.depth row) := by
  intro p hp habove
  match row with
  | [] => rfl
  | t :: right =>
    have htop : Printer.run indent p t.visits = p.putAll indent (t.lines p.depth) := by
      cases t with
      | node label children =>
        have hline := PieceKind.line?_ofSymbol label (textOf children)
        have hkind := PieceKind.isFolded_ofSymbol label
        rw [visits, lines]
        cases hfolded : (Element.node label).isFolded with
        | true =>
          exact Printer.run_through_line_folded hindent hp habove hline (hkind.trans hfolded) _
            (run_visitsOf_folded children)
        | false =>
          refine Printer.run_through_line hindent hp habove hline _ _ ?_
          intro hmargin printed
          -- the children are walked with nothing folded, one level further in
          have hopen : (Printer.descend (.ofSymbol label) p).folds = 0 := by
            rw [Printer.descend, hkind, hfolded]
            exact hp
          exact run_visitsOf hindent children _ hopen hmargin
      | lexeme text =>
        refine Printer.run_through_line hindent hp habove rfl [] [] ?_
        intro _ printed
        rfl
      | empty =>
        exact Printer.run_through_line_folded hindent hp habove rfl rfl
          [.enter .epsilon "", .leave .epsilon] fun _ => Printer.run_text_folded
      | error message =>
        exact Printer.run_through_line_folded hindent hp habove rfl rfl
          [.enter .errorMessage message, .leave .errorMessage] fun _ => Printer.run_text_folded
    rw [visitsOf, linesOf, Printer.run_append, htop, Printer.putAll_append]
    unfold Printer.putAll
    split
    · exact run_visitsOf hindent right _ hp habove
    · rfl
  termination_by sizeOf row

/-- A walk from the root and back prints the whole tree, and both counters are at zero then, unless
a line has a margin that no text can hold. No counter is lowered at zero and no product is more than
a machine word holds. -/
theorem ParseTree.print_eq (t : ParseTree) {indent : Nat} (hindent : indent ≤ widestWord) :
    t.print indent = if t.fits indent then .ok ⟨0, 0, t.render indent⟩ else .error .beyondText := by
  have hwalk : t.print indent = Printer.putAll indent ⟨0, 0, t.title ++ "\n"⟩ t.outline := by
    rw [outline_eq_linesOf]
    refine Printer.run_through [] (Tree.linesOf 1 t.children) _
      (Printer.step_enter_quiet (.inr rfl)) ?_
    intro _ printed
    have habove : (1 - 1 - 1) * indent ≤ widestMargin := by simp
    exact Tree.run_visitsOf hindent t.children _ rfl habove
  rw [hwalk]
  rfl

end WhileSyntax
