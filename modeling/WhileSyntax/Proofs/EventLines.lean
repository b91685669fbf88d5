import WhileSyntax.Proofs.Readability
namespace WhileSyntax

/-! # Reading an event listing

An event is listed on a line of its own, and the line says everything: it opens with the sort of the
event, a number ends at the next blank or colon, and a quoted text at its closing quote. Only the
message of an error stands there as it is, up to the end of the line; so it must not have a newline
in it. Then the events can be told from their listing (`renderAll_lossless`), whether or not they
describe a tree.
-/

/-! ## Parts of a line -/

/-- What stands in front of the first `c` can be told from the text, and so can what stands behind
it. -/
theorem Text.append_cons_inj {c : Char} {xs ys u v : List Char} (hx : c ∉ xs) (hy : c ∉ ys)
    (h : xs ++ c :: u = ys ++ c :: v) : xs = ys ∧ u = v := by
  have hfront : xs = ys := by
    rw [← takeWhile_ne hx u, h, takeWhile_ne hy v]
  subst hfront
  exact ⟨rfl, (List.cons.inj (List.append_cancel_left h)).2⟩

/-- A quoted text says where it ends. -/
theorem Text.quote_append_inj {s t : String} {u v : List Char}
    (h : (quote s).toList ++ u = (quote t).toList ++ v) : s = t ∧ u = v := by
  rw [toList_quote, toList_quote, List.cons_append, List.cons_append, List.append_assoc,
    List.append_assoc] at h
  rcases escapeAll_append_inj (List.cons.inj h).2 with ⟨hchars, hrest⟩
  exact ⟨String.toList_inj.1 hchars, hrest⟩

namespace Handle

theorem toList_render (h : Handle) : h.render.toList = '#' :: Nat.toDigits 10 h.index := by
  simp [render]

/-- Handles that are written alike are the same. -/
theorem render_inj {h k : Handle} (heq : h.render.toList = k.render.toList) : h = k := by
  rw [toList_render, toList_render] at heq
  have hindex : h.index = k.index := by
    rw [← Text.numberOf_toDigits h.index, (List.cons.inj heq).2, Text.numberOf_toDigits]
  cases h
  exact congrArg mk hindex

/-- A written handle is a hash and digits. -/
theorem notMem_render (h : Handle) {c : Char} (hhash : c ≠ '#') (hdigit : c.isDigit = false) :
    c ∉ h.render.toList := by
  rw [toList_render, List.mem_cons, not_or]
  exact ⟨hhash, Text.notMem_toDigits hdigit⟩

end Handle

/-- A label is a single word. -/
theorem Symbol.blank_notMem_label (x : Symbol) : ' ' ∉ x.label.toList := by
  rcases x with k | r
  · cases k <;> decide
  · cases r <;> decide

/-! ## One event -/

namespace Event

variable {e f : Event}

/-- How the event's line begins, which is the same for all events of a sort. -/
def opening : Event → String
  | .header .. => "header "
  | .node .. => "node "
  | .leaf .. => "leaf "
  | .empty _ => "empty under "
  | .error .. => "error under "
  | .footer => "footer"

/-- What is said of the event behind the opening of its line. -/
def details : Event → List Char
  | .header root title => root.render.toList ++ ' ' :: (Text.quote title).toList
  | .node parent child label =>
    child.render.toList ++ ' ' :: (label.label.toList ++ ' ' ::
      ("under ".toList ++ parent.render.toList))
  | .leaf parent lexeme => (Text.quote lexeme).toList ++ (" under ".toList ++ parent.render.toList)
  | .empty parent => parent.render.toList
  | .error parent message => parent.render.toList ++ ':' :: ' ' :: message.toList
  | .footer => []

theorem toList_render (e : Event) : e.render.toList = e.opening.toList ++ e.details := by
  cases e <;> simp [render, opening, details]

/-- The first two letters of a line tell the sort of its event. -/
theorem opening_eq_of_render (h : e.render = f.render) : e.opening = f.opening := by
  have hletters : ∀ e : Event, e.render.toList.take 2 = e.opening.toList.take 2 := by
    intro e
    rw [toList_render, List.take_append_of_le_length]
    cases e <;> simp [opening]
  have hsame : e.opening.toList.take 2 = f.opening.toList.take 2 := by
    rw [← hletters, ← hletters, h]
  cases e <;> cases f <;> simp [opening] at hsame ⊢

theorem details_eq_of_render (h : e.render = f.render) : e.details = f.details := by
  have hchars := congrArg String.toList h
  rw [toList_render, toList_render, opening_eq_of_render h] at hchars
  exact List.append_cancel_left hchars

/-- Events that are listed alike are the same. -/
theorem render_inj (h : e.render = f.render) : e = f := by
  have hopening := opening_eq_of_render h
  have hdetails := details_eq_of_render h
  -- a handle is a hash and digits, so the next blank or colon ends it
  have hblank : ∀ k : Handle, ' ' ∉ k.render.toList := fun k => k.notMem_render (by decide) rfl
  have hcolon : ∀ k : Handle, ':' ∉ k.render.toList := fun k => k.notMem_render (by decide) rfl
  cases e with
  | header root title =>
    cases f with
    | header root' title' =>
      rcases Text.append_cons_inj (hblank root) (hblank root') hdetails with ⟨hroot, htitle⟩
      rw [Handle.render_inj hroot, Text.quote_injective (String.toList_inj.1 htitle)]
    | _ => simp [opening] at hopening
  | node parent child label =>
    cases f with
    | node parent' child' label' =>
      rcases Text.append_cons_inj (hblank child) (hblank child') hdetails with ⟨hchild, hrest⟩
      rcases Text.append_cons_inj label.blank_notMem_label label'.blank_notMem_label hrest with
        ⟨hlabel, hunder⟩
      rw [Handle.render_inj hchild, Symbol.label_injective (String.toList_inj.1 hlabel),
        Handle.render_inj (List.append_cancel_left hunder)]
    | _ => simp [opening] at hopening
  | leaf parent lexeme =>
    cases f with
    | leaf parent' lexeme' =>
      rcases Text.quote_append_inj hdetails with ⟨rfl, hunder⟩
      rw [Handle.render_inj (List.append_cancel_left hunder)]
    | _ => simp [opening] at hopening
  | empty parent =>
    cases f with
    | empty parent' => rw [Handle.render_inj hdetails]
    | _ => simp [opening] at hopening
  | error parent message =>
    cases f with
    | error parent' message' =>
      rcases Text.append_cons_inj (hcolon parent) (hcolon parent') hdetails with ⟨hparent, hrest⟩
      rw [Handle.render_inj hparent, String.toList_inj.1 (List.cons.inj hrest).2]
    | _ => simp [opening] at hopening
  | footer =>
    cases f with
    | footer => rfl
    | _ => simp [opening] at hopening

/-- The event is listed on one line: what is listed as it is has no newline in it. -/
def IsLegible : Event → Prop
  | .error _ message => '\n' ∉ message.toList
  | _ => True

theorem newline_notMem_render (he : e.IsLegible) : '\n' ∉ e.render.toList := by
  have hhandle : ∀ k : Handle, '\n' ∉ k.render.toList := fun k => k.notMem_render (by decide) rfl
  have hopening : '\n' ∉ e.opening.toList := by
    cases e <;> simp [opening]
  have hdetails : '\n' ∉ e.details := by
    cases e with
    | header root title => simp [details, hhandle, Text.newline_notMem_quote]
    | node parent child label => simp [details, hhandle, label.label_plain.2.2]
    | leaf parent lexeme => simp [details, hhandle, Text.newline_notMem_quote]
    | empty parent => exact hhandle parent
    | error parent message =>
      have hmessage : '\n' ∉ message.toList := he
      simp [details, hhandle, hmessage]
    | footer => exact List.not_mem_nil
  rw [toList_render, List.mem_append, not_or]
  exact ⟨hopening, hdetails⟩

/-! ## A listing -/

/-- A listing is the lines of its events, each ended by a newline. -/
theorem renderAll_eq (es : List Event) :
    renderAll es = String.join (es.map fun e => e.render ++ "\n") := by
  rw [renderAll, foldl_lines, String.empty_append]

theorem toList_renderAll (es : List Event) :
    (renderAll es).toList = (es.map fun e => e.render.toList).flatMap (· ++ ['\n']) := by
  rw [renderAll_eq]
  simp [String.toList_join, List.flatMap_map]

theorem newline_notMem_lines {es : List Event} (hes : ∀ e ∈ es, e.IsLegible) :
    ∀ l ∈ es.map fun e => e.render.toList, '\n' ∉ l := by
  intro l hl
  rcases List.mem_map.1 hl with ⟨e, he, rfl⟩
  exact newline_notMem_render (hes e he)

/-- Legible events can be told from their listing. -/
theorem renderAll_inj {es fs : List Event} (hes : ∀ e ∈ es, e.IsLegible)
    (hfs : ∀ f ∈ fs, f.IsLegible) (h : renderAll es = renderAll fs) : es = fs := by
  have hchars := congrArg String.toList h
  rw [toList_renderAll, toList_renderAll] at hchars
  have hlines := Text.lines_inj (newline_notMem_lines hes) (newline_notMem_lines hfs) hchars
  refine List.map_injective_iff.2 ?_ hlines
  intro e f heq
  exact render_inj (String.toList_inj.1 heq)

/-- Legible events are listed alike only if they are the same. Their listing has a line for each of
them, in their order, which is ended by a newline and has no other in it. -/
theorem renderAll_lossless {es fs : List Event} (hes : ∀ e ∈ es, e.IsLegible)
    (hfs : ∀ f ∈ fs, f.IsLegible) :
    (renderAll es = renderAll fs → es = fs) ∧
      renderAll es = String.join (es.map fun e => e.render ++ "\n") ∧
      ∀ e ∈ es, '\n' ∉ e.render.toList := by
  refine ⟨renderAll_inj hes hfs, renderAll_eq es, ?_⟩
  intro e he
  exact newline_notMem_render (hes e he)

/-- A lexeme that reads like the end of its line and another line is not taken for them. -/
theorem renderAll_lossless_disguised :
    let es : List Event := [.leaf ⟨1⟩ "\" under #1\nempty under #2", .error ⟨2⟩ "footer"]
    let fs : List Event := [.leaf ⟨1⟩ "", .empty ⟨2⟩, .error ⟨2⟩ "footer"]
    (∀ e ∈ es, e.IsLegible) ∧ (∀ f ∈ fs, f.IsLegible) ∧ renderAll es ≠ renderAll fs ∧
      renderAll es = String.join (es.map fun e => e.render ++ "\n") ∧
      ∀ e ∈ es, '\n' ∉ e.render.toList := by
  intro es fs
  have hes : ∀ e ∈ es, e.IsLegible := by
    simp [es, IsLegible]
  have hfs : ∀ f ∈ fs, f.IsLegible := by
    simp [fs, IsLegible]
  rcases renderAll_lossless hes hfs with ⟨hinj, hlines, hnewline⟩
  refine ⟨hes, hfs, ?_, hlines, hnewline⟩
  intro h
  -- alike listings would make the lists the same
  exact absurd (hinj h) (by decide)

/-- A message of two lines may well be taken for a message and an event. -/
example : renderAll [.error ⟨0⟩ "x\nfooter"] = renderAll [.error ⟨0⟩ "x", .footer] := by
  decide

end Event

/-! ## Parses -/

/-- The events of a parse are legible: there is no newline in the message of its error. -/
theorem isLegible_events (title source : String) :
    ∀ e ∈ (parseTitled title source).events, e.IsLegible := by
  intro e he
  cases e with
  | error h message =>
    -- the only such event is that of the error, and its message stands on one line
    rcases exists_additions title source with ⟨body, hbody, hevents⟩
    have hcall := (event_mem_iff _ (c := .error h message) rfl).1 he
    rw [hevents, error_mem_framed_iff title hbody] at hcall
    rcases hcall with ⟨d, hd, -, rfl⟩
    exact newline_notMem_message title source hd
  | _ => trivial

/-- The listed events of a parse tell all of them, and the title with them. -/
theorem events_eq_of_listing {title title' source source' : String}
    (h : Event.renderAll (parseTitled title source).events =
      Event.renderAll (parseTitled title' source').events) :
    (parseTitled title source).events = (parseTitled title' source').events :=
  Event.renderAll_inj (isLegible_events title source) (isLegible_events title' source') h

end WhileSyntax
