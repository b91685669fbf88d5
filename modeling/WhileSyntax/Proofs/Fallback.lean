import WhileSyntax.Proofs.Keeping
import WhileSyntax.Proofs.Outcomes
namespace WhileSyntax

/-! # Settings that are refused

A file of settings is refused as a whole, because it cannot be read, because it is no document, or
because of the value of one key; what the other keys say does not matter
(`Settings.load_eq_error_iff`). A path that leads nowhere is no refusal: there are no settings then
(`Settings.load_eq_ok_none_iff`). Where the settings of a run come from shows in its first records
and nowhere else (`Command.run_eq_pursue`). So a run with refused settings is one without a file,
save for a warning (`run_with_refused_settings`).
-/

namespace Settings

/-- The values that the key of a field may have. -/
inductive Field.Allows : Field → Toml.Value → Prop where
  | title (text : String) : Allows .title (.string text)
  | format (p : Printout) : Allows .format (.string p.name)
  | formatOfArray (p : Printout) : Allows .format (.table [(p.name, .array [])])
  | formatOfTable (p : Printout) : Allows .format (.table [(p.name, .table [])])
  | indent (n : Nat) (h : n < indentBound) : Allows .indent (.integer n)

/-- What is found under a path is refused as settings, with the fault that is reported. -/
inductive Refused (path : String) : Except ReadFault String → Fault → Prop where
  /-- Something is there, but it cannot be read. -/
  | unreadable {error : FileError} :
    Refused path (.error (.unreadable error)) (.unreadable path error)
  /-- The text is no document. -/
  | noDocument {text : String} (hread : Toml.read? text = none) :
    Refused path (.ok text) (.malformed path)
  /-- The document is wrong about one field, whatever it says about the others. -/
  | wrongValue {text : String} {t : Toml.Table} {f : Field} {v : Toml.Value}
    (hread : Toml.read? text = some t) (hget : t.get? f.key = some v) (hwrong : ¬ f.Allows v) :
    Refused path (.ok text) (.malformed path)

/-! ## Wrong values -/

theorem isSome_title?_iff {v : Toml.Value} : (title? v).isSome ↔ Field.title.Allows v := by
  cases v with
  | string text => exact iff_of_true rfl (.title text)
  | _ => exact iff_of_false Bool.false_ne_true nofun

theorem ofName?_eq_some_iff {name : String} {p : Printout} :
    Printout.ofName? name = some p ↔ name = p.name := by
  constructor
  · intro h
    unfold Printout.ofName? at h
    split_ifs at h with htree hevents
    · cases h
      exact htree
    · cases h
      exact hevents
  · rintro rfl
    exact ofName?_name p

theorem isSome_format?_iff {v : Toml.Value} : (format? v).isSome ↔ Field.format.Allows v := by
  rw [Option.isSome_iff_exists]
  constructor
  · rintro ⟨p, hp⟩
    unfold format? at hp
    split at hp
    case h_4 => cases hp
    all_goals
      rw [ofName?_eq_some_iff] at hp
      subst hp
    · exact .format p
    · exact .formatOfArray p
    · exact .formatOfTable p
  · intro h
    cases h with
    | format p => exact ⟨p, ofName?_name p⟩
    | formatOfArray p => exact ⟨p, ofName?_name p⟩
    | formatOfTable p => exact ⟨p, ofName?_name p⟩

theorem isSome_indent?_iff {v : Toml.Value} : (indent? v).isSome ↔ Field.indent.Allows v := by
  rw [Option.isSome_iff_exists]
  constructor
  · rintro ⟨n, hn⟩
    cases v with
    | integer i =>
      rw [indent?] at hn
      split_ifs at hn with hbounds
      rcases hbounds with ⟨hnonneg, hlt⟩
      rw [← Int.toNat_of_nonneg hnonneg] at hlt ⊢
      exact .indent i.toNat (Int.ofNat_lt.1 hlt)
    | _ => cases hn
  · intro h
    cases h with
    | indent n h => exact ⟨n, indent?_ofNat h⟩

theorem setting_eq_none_iff {α : Type} {t : Toml.Table} {key : String}
    {read : Toml.Value → Option α} {fallback : α} :
    setting t key read fallback = none ↔ ∃ v, t.get? key = some v ∧ ¬ (read v).isSome := by
  unfold setting
  cases t.get? key with
  | none => simp
  | some v => simp

/-- A table is refused if and only if one of its values is wrong. -/
theorem ofTable?_eq_none_iff {t : Toml.Table} :
    ofTable? t = none ↔ ∃ (f : Field) (v : Toml.Value), t.get? f.key = some v ∧ ¬ f.Allows v := by
  have hnone : ofTable? t = none ↔ setting t Field.title.key title? default.title = none ∨
      setting t Field.format.key format? default.format = none ∨
      setting t Field.indent.key indent? default.indent = none := by
    unfold ofTable? Field.key
    cases setting t "title" title? default.title with
    | none => exact iff_of_true rfl (.inl rfl)
    | some title =>
      cases setting t "format" format? default.format with
      | none => exact iff_of_true rfl (.inr (.inl rfl))
      | some format =>
        cases setting t "indent" indent? default.indent with
        | none => exact iff_of_true rfl (.inr (.inr rfl))
        | some indent => exact iff_of_false nofun (by rintro (h | h | h) <;> cases h)
  simp only [setting_eq_none_iff, isSome_title?_iff, isSome_format?_iff, isSome_indent?_iff]
    at hnone
  rw [hnone]
  constructor
  · rintro (⟨v, hv⟩ | ⟨v, hv⟩ | ⟨v, hv⟩)
    · exact ⟨.title, v, hv⟩
    · exact ⟨.format, v, hv⟩
    · exact ⟨.indent, v, hv⟩
  · rintro ⟨f, v, hv⟩
    cases f with
    | title => exact .inl ⟨v, hv⟩
    | format => exact .inr (.inl ⟨v, hv⟩)
    | indent => exact .inr (.inr ⟨v, hv⟩)

/-- A text is refused if and only if it is no document or its table is refused. -/
theorem ofText?_eq_none_iff {text : String} :
    ofText? text = none ↔ Toml.read? text = none ∨ ∃ t, Toml.read? text = some t ∧
      ∃ (f : Field) (v : Toml.Value), t.get? f.key = some v ∧ ¬ f.Allows v := by
  rw [ofText?]
  cases Toml.read? text with
  | none => simp
  | some t => simp [ofTable?_eq_none_iff]

/-- Loading fails if and only if what is found is refused. -/
theorem load_eq_error_iff {read : Reader} {path : String} {fault : Fault} :
    load read path = .error fault ↔ Refused path (read path) fault := by
  unfold load
  cases read path with
  | error found =>
    cases found with
    | unreachable error =>
      -- nothing is there that could be refused
      exact iff_of_false nofun nofun
    | unreadable error =>
      constructor
      · rintro ⟨⟩
        exact .unreadable
      · rintro ⟨⟩
        rfl
  | ok text =>
    constructor
    · intro h
      cases htext : ofText? text with
      | some c =>
        simp only [htext] at h
        cases h
      | none =>
        simp only [htext] at h
        cases h
        rcases ofText?_eq_none_iff.1 htext with hread | ⟨t, hread, f, v, hget, hwrong⟩
        · exact .noDocument hread
        · exact .wrongValue hread hget hwrong
    · intro h
      have htext : ofText? text = none := by
        cases h with
        | noDocument hread => exact ofText?_eq_none_iff.2 (.inl hread)
        | wrongValue hread hget hwrong =>
          exact ofText?_eq_none_iff.2 (.inr ⟨_, hread, _, _, hget, hwrong⟩)
      -- either way the document is reported as malformed
      cases h <;> simp only [htext]

/-- There are no settings if and only if the path leads nowhere, for whatever reason. -/
theorem load_eq_ok_none_iff {read : Reader} {path : String} :
    load read path = .ok none ↔ ∃ error, read path = .error (.unreachable error) := by
  unfold load
  cases read path with
  | error found =>
    cases found with
    | unreachable error => exact iff_of_true rfl ⟨error, rfl⟩
    | unreadable error => exact iff_of_false nofun nofun
  | ok text =>
    -- a text gives settings or a fault
    cases htext : ofText? text with
    | none => simp [htext]
    | some c => simp [htext]

end Settings

/-- The environment has no file of settings, and what the arguments ask for is read as in the other
environment. So the arguments cannot ask for a file under the path of the settings where the other
environment has one: a run whose source is the file of settings itself is left out. -/
structure Environment.Bare (bare env : Environment) (args : List String) : Prop where
  absent : Settings.load bare.read (Settings.path bare.home) = .ok none
  threshold : bare.threshold = env.threshold
  source : ∀ path times, Arguments.AskFor path times args → bare.read path = env.read path

namespace Command

variable {program : String} {env : Environment} {args : List String} {a : Arguments}
  {fault : Settings.Fault}

def warning (fault : Settings.Fault) : LogRecord :=
  ⟨.warn, complaint fault ++ "; using defaults"⟩

/-- What a run leaves behind from where it reads the source on; `found` is what comes of that. -/
def pursue (a : Arguments) (settings : Settings) (found : Except ReadFault String)
    (threshold : Nat) : Report :=
  match found with
  | .error fault => ⟨.failure, "", sourceComplaints a.path fault, []⟩
  | .ok source =>
    let (status, output, complaints, log) := analyzeSource a settings source
    ⟨status, output, complaints, Log.upTo threshold log⟩

/-- Where the settings come from shows in the first records and nowhere else. -/
theorem run_eq_pursue {found : Except ReadFault String} (h : Arguments.parse? args = some a)
    (hread : env.read a.path = found) :
    run program env args = { pursue a env.settings found env.threshold with
      log := Log.upTo env.threshold (configure env).2 ++
        (pursue a env.settings found env.threshold).log } := by
  cases found with
  | error fault =>
    rw [run_of_read_eq_error h hread]
    simp only [pursue, List.append_nil]
  | ok source =>
    -- the threshold acts on each record, so on the first ones by themselves
    rw [run, h]
    simp only [hread, settings_configure, pursue, Log.upTo, List.filter_append]

/-- With refused settings there is one record before all others. -/
theorem run_eq_of_load_eq_error (h : Arguments.parse? args = some a)
    (hload : Settings.load env.read (Settings.path env.home) = .error fault) :
    run program env args = { pursue a .default (env.read a.path) env.threshold with
      log := Log.upTo env.threshold [warning fault] ++
        (pursue a .default (env.read a.path) env.threshold).log } := by
  have hconfigure : configure env = (.default, [warning fault]) := by
    rw [configure, hload]
    rfl
  rw [run_eq_pursue h rfl, ← settings_configure, hconfigure]

/-- Without a file of settings there is none. -/
theorem run_eq_of_load_eq_none (h : Arguments.parse? args = some a)
    (hload : Settings.load env.read (Settings.path env.home) = .ok none) :
    run program env args = pursue a .default (env.read a.path) env.threshold := by
  have hconfigure : configure env = (.default, []) := by
    rw [configure, hload]
  rw [run_eq_pursue h rfl, ← settings_configure, hconfigure]
  rfl

end Command

/-- Loading fails for what is refused and for nothing else, and there are no settings just where
the path leads nowhere. A run with refused settings ends as one without a file does: the default
settings are in effect, and status, output and complaints are the same. The log is preceded by one
warning if the arguments are understood and warnings are let through; otherwise it is the same as
well. -/
theorem run_with_refused_settings :
    (∀ (read : Reader) (path : String) (fault : Settings.Fault),
      Settings.load read path = .error fault ↔ Settings.Refused path (read path) fault) ∧
    (∀ (read : Reader) (path : String),
      Settings.load read path = .ok none ↔ ∃ error, read path = .error (.unreachable error)) ∧
    ∀ (program : String) (env bare : Environment) (args : List String) (fault : Settings.Fault),
      Settings.load env.read (Settings.path env.home) = .error fault → bare.Bare env args →
        let report := Command.run program env args
        let plain := Command.run program bare args
        let warns := (∃ path times, Arguments.AskFor path times args) ∧
          Level.warn.rank ≤ env.threshold
        env.settings = .default ∧ report.status = plain.status ∧ report.output = plain.output ∧
          report.complaints = plain.complaints ∧
          (warns → report.log = Command.warning fault :: plain.log) ∧
          (¬ warns → report.log = plain.log) := by
  refine ⟨fun read path fault => Settings.load_eq_error_iff,
    fun read path => Settings.load_eq_ok_none_iff, ?_⟩
  intro program env bare args fault hrefused hbare report plain warns
  have hsettings : env.settings = .default := by rw [Environment.settings, hrefused]
  refine ⟨hsettings, ?_⟩
  cases hparse : Arguments.parse? args with
  | none =>
    -- the command says how it is called, and never looks for settings
    have hreport : report = plain := by
      rw [show report = _ from Command.run_of_parse?_eq_none hparse,
        show plain = _ from Command.run_of_parse?_eq_none hparse]
    have hnone : ¬ warns := by
      rintro ⟨⟨path, times, hask⟩, -⟩
      have hsome : Arguments.parse? args = some ⟨path, decide (0 < times)⟩ :=
        Arguments.parse?_eq_some_iff.2 ⟨times, hask, rfl⟩
      rw [hparse] at hsome
      cases hsome
    rw [hreport]
    exact ⟨rfl, rfl, rfl, fun h => absurd h hnone, fun _ => rfl⟩
  | some a =>
    -- from the settings on, both runs do the same
    rcases Arguments.parse?_eq_some_iff.1 hparse with ⟨times, hask, -⟩
    have hwarns : warns ↔ Level.warn.rank ≤ env.threshold :=
      and_iff_right ⟨a.path, times, hask⟩
    have hreport : report = _ := Command.run_eq_of_load_eq_error hparse hrefused
    have hplain : plain = _ := Command.run_eq_of_load_eq_none hparse hbare.absent
    rw [hbare.source a.path times hask, hbare.threshold] at hplain
    rw [hreport, hplain]
    refine ⟨rfl, rfl, rfl, ?_, ?_⟩
    · intro h
      have hpass : Log.upTo env.threshold [Command.warning fault] = [Command.warning fault] :=
        List.filter_cons_of_pos (decide_eq_true (hwarns.1 h))
      rw [hpass]
      rfl
    · intro h
      have hstop : Log.upTo env.threshold [Command.warning fault] = [] :=
        List.filter_cons_of_neg fun hpass => h (hwarns.2 (of_decide_eq_true hpass))
      rw [hstop]
      rfl

/-- Two of three fields have good values, which would make the command print events under another
title. -/
theorem run_with_refused_settings_negativeIndent :
    let document := "title = \"T\"\nformat = \"events\"\nindent = -1"
    let env : Environment := ⟨"/h", fun path =>
      if path = "p" then .ok "read 1" else .ok document, 3⟩
    let bare : Environment := ⟨"/h", fun path =>
      if path = "p" then .ok "read 1" else .error (.unreachable .missing), 3⟩
    let fault := Settings.Fault.malformed "/h/.config/minilang/config.toml"
    Settings.load env.read (Settings.path env.home) = .error fault ∧ bare.Bare env ["p"] ∧
      env.settings = .default ∧
      Settings.Refused "/h/.config/minilang/config.toml" (.ok document) fault ∧
      (Command.run "m" env ["p"]).output = (Command.run "m" bare ["p"]).output ∧
      (Command.run "m" env ["p"]).log =
        ⟨.warn, "Failed to parse config file at /h/.config/minilang/config.toml: ...; " ++
          "using defaults"⟩ :: (Command.run "m" bare ["p"]).log := by
  intro document env bare fault
  have hrefused : Settings.load env.read (Settings.path env.home) = .error fault := by
    decide +kernel
  have hask : Arguments.AskFor "p" 0 ["p"] := ⟨by decide, .refl _⟩
  have hbare : bare.Bare env ["p"] := by
    refine ⟨by decide +kernel, rfl, ?_⟩
    rintro path times ⟨-, hperm⟩
    have hpath : path = "p" := by
      have hmem : path ∈ ["p"] := hperm.symm.subset List.mem_cons_self
      exact List.mem_singleton.1 hmem
    rw [hpath]
    rfl
  rcases run_with_refused_settings with ⟨hrefusal, -, hruns⟩
  rcases hruns "m" env bare ["p"] fault hrefused hbare with ⟨hsettings, -, houtput, -, hlog, -⟩
  have hwarning : Command.warning fault =
      ⟨.warn, "Failed to parse config file at /h/.config/minilang/config.toml: ...; " ++
        "using defaults"⟩ := by decide +kernel
  rw [hwarning] at hlog
  exact ⟨hrefused, hbare, hsettings, (hrefusal env.read _ fault).1 hrefused, houtput,
    hlog ⟨⟨"p", 0, hask⟩, by decide⟩⟩

end WhileSyntax
