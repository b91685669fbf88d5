import WhileSyntax.Command
namespace WhileSyntax

/-! # How a run of the command ends

What the arguments ask for does not depend on their order (`Arguments.parse?_eq_some_iff`). If they
ask for nothing, no file is looked at. Otherwise the source file decides whether there is anything
to print, and its analysis which status is returned; the settings only have a say in what is
printed, and settings that are refused have none (`run_outcome`).
-/

/-! ## What arguments ask for -/

namespace Arguments

/-- The arguments are a path and, so many times, the option for events; in any order. -/
def AskFor (path : String) (times : Nat) (args : List String) : Prop :=
  ¬ ['-', '-'] <+: path.toList ∧ args.Perm (path :: List.replicate times "--events")

theorem isOption_iff {arg : String} : isOption arg = true ↔ ['-', '-'] <+: arg.toList :=
  List.isPrefixOf_iff_prefix

/-- The option for events is no path. -/
theorem ne_events_of_not_prefix {path : String} (h : ¬ ['-', '-'] <+: path.toList) :
    path ≠ "--events" := by
  rintro rfl
  exact h (by decide)

/-- Behind a path nothing but the option for events may come. -/
theorem parseFrom_some_iff {path : String} {events : Bool} {args : List String} {a : Arguments} :
    parseFrom (some path) events args = some a ↔
      ∃ times, args = List.replicate times "--events" ∧
        a = ⟨path, events || decide (0 < times)⟩ := by
  induction args generalizing events with
  | nil =>
    constructor
    · intro h
      exact ⟨0, rfl, by simpa [parseFrom] using h.symm⟩
    · rintro ⟨times, hargs, rfl⟩
      rw [eq_comm, List.replicate_eq_nil_iff] at hargs
      simp [parseFrom, hargs]
  | cons arg args ih =>
    by_cases harg : arg = "--events"
    · subst harg
      rw [parseFrom, if_pos rfl, ih]
      constructor
      · rintro ⟨times, rfl, rfl⟩
        exact ⟨times + 1, rfl, by simp⟩
      · rintro ⟨times, hargs, rfl⟩
        cases times with
        | zero => cases hargs
        | succ times => exact ⟨times, (List.cons.inj hargs).2, by simp⟩
    · -- another option, or a second path
      have hnone : parseFrom (some path) events (arg :: args) = none := by
        rw [parseFrom, if_neg harg]
        split <;> rfl
      rw [hnone]
      constructor
      · intro h
        cases h
      · rintro ⟨times, hargs, -⟩
        cases times with
        | zero => cases hargs
        | succ times => exact absurd (List.cons.inj hargs).1 harg

theorem parseFrom_none_iff {events : Bool} {args : List String} {a : Arguments} :
    parseFrom none events args = some a ↔
      ∃ times, AskFor a.path times args ∧ a.events = (events || decide (0 < times)) := by
  induction args generalizing events with
  | nil =>
    constructor
    · intro h
      cases h
    · rintro ⟨times, ⟨-, hperm⟩, -⟩
      exact absurd hperm.symm (List.not_perm_cons_nil)
  | cons arg args ih =>
    by_cases harg : arg = "--events"
    · subst harg
      rw [parseFrom, if_pos rfl, ih]
      constructor
      · rintro ⟨times, ⟨hpath, hperm⟩, hevents⟩
        refine ⟨times + 1, ⟨hpath, ?_⟩, by simp [hevents]⟩
        exact (hperm.cons "--events").trans (.swap ..)
      · rintro ⟨times, ⟨hpath, hperm⟩, hevents⟩
        have hne := ne_events_of_not_prefix hpath
        cases times with
        | zero =>
          have hsingle := List.perm_singleton.1 hperm
          exact absurd (List.cons.inj hsingle).1.symm hne
        | succ times =>
          have hswap := hperm.trans (.swap "--events" a.path (List.replicate times "--events"))
          exact ⟨times, ⟨hpath, hswap.cons_inv⟩, by simp [hevents]⟩
    · rw [parseFrom, if_neg harg]
      by_cases hoption : isOption arg = true
      · rw [if_pos hoption]
        constructor
        · intro h
          cases h
        · rintro ⟨times, ⟨hpath, hperm⟩, -⟩
          -- the argument would have to be the path
          rcases List.mem_cons.1 (hperm.mem_iff.1 List.mem_cons_self) with rfl | hmem
          · exact absurd (isOption_iff.1 hoption) hpath
          · exact absurd (List.eq_of_mem_replicate hmem) harg
      · rw [if_neg hoption]
        simp only [parseFrom_some_iff]
        constructor
        · rintro ⟨times, rfl, rfl⟩
          exact ⟨times, ⟨mt isOption_iff.2 hoption, .refl _⟩, rfl⟩
        · rintro ⟨times, ⟨hpath, hperm⟩, hevents⟩
          rcases List.mem_cons.1 (hperm.mem_iff.1 List.mem_cons_self) with heq | hmem
          · rw [heq] at hperm ⊢
            refine ⟨times, List.perm_replicate.1 hperm.cons_inv, ?_⟩
            rw [← hevents]
          · exact absurd (List.eq_of_mem_replicate hmem) harg

/-- Arguments are understood if they ask for a path, and events are wanted if the option for them is
there at least once. -/
theorem parse?_eq_some_iff {args : List String} {a : Arguments} :
    parse? args = some a ↔ ∃ times, AskFor a.path times args ∧ a.events = decide (0 < times) := by
  rw [parse?, parseFrom_none_iff]
  simp only [Bool.false_or]

end Arguments

/-! ## Whole runs -/

/-- The settings in effect: those in the user's file, or the defaults, be it that there is no file
or that it is refused. -/
def Environment.settings (env : Environment) : Settings :=
  match Settings.load env.read (Settings.path env.home) with
  | .ok (some c) => c
  | .ok none => .default
  | .error _ => .default

namespace Command

variable {program : String} {env : Environment} {args : List String} {a : Arguments}
  {source text : String} {fault : ReadFault}

theorem settings_configure (env : Environment) : (configure env).1 = env.settings := by
  unfold configure Environment.settings
  cases Settings.load env.read (Settings.path env.home) with
  | error fault => rfl
  | ok found => cases found <;> rfl

/-- Whether the arguments or the settings want events. -/
def WantsEvents (a : Arguments) (settings : Settings) : Prop :=
  a.events = true ∨ settings.format = .events

theorem output?_of_wantsEvents {settings : Settings} {p : Parse} (h : WantsEvents a settings)
    (indent : Nat) :
    output? (printoutOf a settings) indent p = some (Event.renderAll p.events) := by
  have hprintout : printoutOf a settings = .events := by
    unfold printoutOf
    rcases h with hevents | hformat
    · rw [if_pos hevents]
    · rw [hformat, ite_self]
  rw [hprintout]
  rfl

theorem output?_of_not_wantsEvents {settings : Settings} {p : Parse} {indent : Nat}
    (h : ¬ WantsEvents a settings) (hfits : p.tree.fits indent = true) :
    output? (printoutOf a settings) indent p = some (p.tree.render indent) := by
  -- with neither of the two wishes the tree is left
  have hprintout : printoutOf a settings = .tree := by
    unfold printoutOf
    rw [WantsEvents, not_or] at h
    rw [if_neg h.1]
    cases hformat : settings.format with
    | tree => rfl
    | events => exact absurd hformat h.2
  rw [hprintout]
  exact if_pos hfits

def statusOf (p : Parse) : ExitStatus :=
  if p.error.isSome then .failure else .success

/-- Arguments that are not understood end a run before any file is read. -/
theorem run_of_parse?_eq_none (h : Arguments.parse? args = none) :
    run program env args = ⟨.usage, "", [usage program], []⟩ := by
  rw [run, h]

/-- A source that cannot be read ends a run before anything is printed. -/
theorem run_of_read_eq_error (h : Arguments.parse? args = some a)
    (hread : env.read a.path = .error fault) :
    run program env args =
      ⟨.failure, "", sourceComplaints a.path fault, (configure env).2.upTo env.threshold⟩ := by
  rw [run, h]
  simp only [hread]

/-- What can be printed of the parse of a source is printed. -/
theorem run_of_read_eq_ok (h : Arguments.parse? args = some a)
    (hread : env.read a.path = .ok source)
    (hprint : output? (printoutOf a env.settings) env.settings.indent
      (parseTitled env.settings.title source) = some text) :
    run program env args =
      ⟨statusOf (parseTitled env.settings.title source), text, [],
        Log.upTo env.threshold ((configure env).2 ++ ⟨.info, "Analyzing " ++ a.path⟩ ::
          (parseTitled env.settings.title source).log)⟩ := by
  rw [run, h]
  simp only [hread, analyzeSource, settings_configure, hprint]
  rfl

end Command

/-- The arguments, the source and the settings decide how a run ends, and nothing else does. If the
arguments do not ask for one path, the usage line is all that there is. If the source cannot be read
nothing is printed. Otherwise the events of the parse are printed, or its tree if that fits, and the
status tells whether the parse has an error. -/
theorem run_outcome (program : String) (env : Environment) (args : List String) :
    let report := Command.run program env args
    ((¬ ∃ path times, Arguments.AskFor path times args) → report.status.code = 2 ∧
      report.output = "" ∧ report.complaints = [Command.usage program] ∧ report.log = []) ∧
    ∀ path times, Arguments.AskFor path times args →
      (∀ fault, env.read path = .error fault → report.status.code = 1 ∧ report.output = "") ∧
      ∀ source, env.read path = .ok source →
        let p := parseTitled env.settings.title source
        let listed := 0 < times ∨ env.settings.format = .events
        (listed → report.output = Event.renderAll p.events) ∧
        (¬ listed → p.tree.fits env.settings.indent = true →
          report.output = p.tree.render env.settings.indent) ∧
        (listed ∨ p.tree.fits env.settings.indent = true →
          report.status.code = if p.error.isSome then 1 else 0) := by
  intro report
  constructor
  · intro hnone
    have hparse : Arguments.parse? args = none := by
      rw [Option.eq_none_iff_forall_ne_some]
      intro a ha
      rcases Arguments.parse?_eq_some_iff.1 ha with ⟨times, hask, -⟩
      exact hnone ⟨a.path, times, hask⟩
    have hreport : report = ⟨.usage, "", [Command.usage program], []⟩ :=
      Command.run_of_parse?_eq_none hparse
    rw [hreport]
    exact ⟨rfl, rfl, rfl, rfl⟩
  · intro path times hask
    have hparse : Arguments.parse? args = some ⟨path, decide (0 < times)⟩ :=
      Arguments.parse?_eq_some_iff.2 ⟨times, hask, rfl⟩
    constructor
    · intro fault hread
      have hreport : report = _ := Command.run_of_read_eq_error hparse hread
      rw [hreport]
      exact ⟨rfl, rfl⟩
    · intro source hread p listed
      have hlisted : Command.WantsEvents ⟨path, decide (0 < times)⟩ env.settings ↔ listed := by
        rw [Command.WantsEvents, decide_eq_true_iff]
      have hcode : (Command.statusOf p).code = if p.error.isSome then 1 else 0 := by
        unfold Command.statusOf
        split <;> rfl
      -- what is to be printed is printed, and only then has the error a say
      have hreport : ∀ text, Command.output? (Command.printoutOf ⟨path, decide (0 < times)⟩
          env.settings) env.settings.indent p = some text →
            report.output = text ∧ report.status.code = if p.error.isSome then 1 else 0 := by
        intro text hprint
        have hrun : report = _ := Command.run_of_read_eq_ok hparse hread hprint
        rw [hrun]
        exact ⟨rfl, hcode⟩
      have hevents := fun h : listed =>
        hreport _ (Command.output?_of_wantsEvents (hlisted.2 h) env.settings.indent)
      have htree := fun (h : ¬ listed) hfits =>
        hreport _ (Command.output?_of_not_wantsEvents (mt hlisted.1 h) hfits)
      refine ⟨fun h => (hevents h).1, fun h hfits => (htree h hfits).1, ?_⟩
      intro hprinted
      by_cases h : listed
      · exact (hevents h).2
      · exact (htree h (hprinted.resolve_left h)).2

/-- The settings have a title and an indent of their own; the tree is printed although the source
has an error. -/
theorem run_outcome_readOne :
    let env : Environment := ⟨"/h", fun path =>
      if path = "p" then .ok "read 1" else .ok "title = \"T\"\nindent = 3", 3⟩
    let report := Command.run "m" env ["p"]
    let p := parseTitled "T" "read 1"
    Arguments.AskFor "p" 0 ["p"] ∧ env.read "p" = .ok "read 1" ∧ p.tree.fits 3 = true ∧
      report.output = p.tree.render 3 ∧ report.status.code = 1 := by
  intro env report p
  have hask : Arguments.AskFor "p" 0 ["p"] := ⟨by decide, .refl _⟩
  have hread : env.read "p" = .ok "read 1" := rfl
  have hsettings : env.settings = ⟨"T", .tree, 3⟩ := by decide +kernel
  have herror : p.error.isSome = true := by decide +kernel
  have hfits : p.tree.fits 3 = true := by decide +kernel
  rcases (run_outcome "m" env ["p"]).2 "p" 0 hask with ⟨-, hparsed⟩
  rcases hparsed "read 1" hread with ⟨-, hprinted, hstatus⟩
  rw [hsettings] at hprinted hstatus
  refine ⟨hask, hread, hfits, hprinted (by decide) hfits, ?_⟩
  rw [hstatus (.inr hfits), if_pos herror]

end WhileSyntax
