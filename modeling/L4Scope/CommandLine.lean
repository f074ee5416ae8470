/-
# The command line

`parse_args` walks over the words of the command line, taking the value of an option with it, and
stops at the first word it cannot place.  So the accepted command lines are the concatenations of
options, of which the last one of a kind counts, and a rejected one is rejected for the word behind
the longest such beginning (`parseArgs_exact`).
-/
import L4Scope.Overlay
import Mathlib.Data.Nat.Init

/-! ## Arguments -/

/-- The options of the command line. -/
structure Args where
  config : Option String
  backend : Option String
  pcap : Option String
  iface : Option String
  liveCmd : Option String
  json : Option String
  noMetrics : Bool
  quiet : Bool
  deriving DecidableEq

/-- No options. -/
def Args.default : Args where
  config := none
  backend := none
  pcap := none
  iface := none
  liveCmd := none
  json := none
  noMetrics := false
  quiet := false

/-- The process ends before it captures: it has printed the help, or failed. -/
inductive Stop where
  | help
  | failed (msg : String)
  deriving DecidableEq

/-- The options with a value. -/
inductive ValueOption where
  | config
  | backend
  | pcap
  | iface
  | liveCmd
  | json
  deriving DecidableEq

namespace ValueOption

/-- The word that announces the value. -/
def flag : ValueOption → String
  | config => "--config"
  | backend => "--backend"
  | pcap => "--pcap"
  | iface => "--iface"
  | liveCmd => "--live-cmd"
  | json => "--json"

/-- The value in the options. -/
def get : ValueOption → Args → Option String
  | config, a => a.config
  | backend, a => a.backend
  | pcap, a => a.pcap
  | iface, a => a.iface
  | liveCmd, a => a.liveCmd
  | json, a => a.json

/-- The options with another value. -/
def set : ValueOption → Option String → Args → Args
  | config, v, a => { a with config := v }
  | backend, v, a => { a with backend := v }
  | pcap, v, a => { a with pcap := v }
  | iface, v, a => { a with iface := v }
  | liveCmd, v, a => { a with liveCmd := v }
  | json, v, a => { a with json := v }

end ValueOption

/-- The arms of the match on a word. -/
inductive Arm where
  | help
  | value (o : ValueOption)
  | demo
  | noMetrics
  | quiet
  | other
  deriving DecidableEq

/-- The arm of the match that a word takes. -/
def Arm.of (arg : String) : Arm :=
  match arg with
  | "-h" | "--help" => help
  | "--config" => value .config
  | "--backend" => value .backend
  | "--pcap" => value .pcap
  | "--iface" => value .iface
  | "--live-cmd" => value .liveCmd
  | "--json" => value .json
  | "--demo" => demo
  | "--no-metrics" => noMetrics
  | "--quiet" => quiet
  | _ => other

/-- The loop of `parse_args`. -/
def parseArgsFrom (a : Args) : List String → Except Stop Args
  | [] => .ok a
  | arg :: it =>
    match Arm.of arg, it with
    | .help, _ => .error .help
    | .value o, v :: it => parseArgsFrom (o.set (some v) a) it
    | .value _, [] => .error (.failed s!"{arg} needs a value")
    | .demo, it => parseArgsFrom { a with backend := some "synthetic" } it
    | .noMetrics, it => parseArgsFrom { a with noMetrics := true } it
    | .quiet, it => parseArgsFrom { a with quiet := true } it
    | .other, _ => .error (.failed s!"unknown argument '{arg}' (try --help)")

/-- The words behind the name of the program. -/
def parseArgs (argv : List String) : Except Stop Args := parseArgsFrom .default argv

/-! ## Options -/

/-- What an option says. -/
inductive ArgField where
  | value (o : ValueOption)
  | noMetrics
  | quiet
  deriving DecidableEq

namespace ArgField

/-- What a field of the options holds. -/
def Value : ArgField → Type
  | value _ => Option String
  | noMetrics | quiet => Bool

/-- The field of the options. -/
def get : (f : ArgField) → Args → f.Value
  | value o, a => o.get a
  | noMetrics, a => a.noMetrics
  | quiet, a => a.quiet

/-- The options with another value in the field. -/
def set : (f : ArgField) → f.Value → Args → Args
  | value o, v, a => o.set v a
  | noMetrics, v, a => { a with noMetrics := v }
  | quiet, v, a => { a with quiet := v }

end ArgField

/-- The options as a record of independent fields. -/
def Args.fields : Fields ArgField ArgField.Value Args where
  get := ArgField.get
  set := ArgField.set
  get_set i x r := by
    rcases i with o | _ | _
    · cases o <;> rfl
    · rfl
    · rfl
  get_set_ne i j x r h := by
    rcases i with o | _ | _ <;> rcases j with o' | _ | _
    · cases o <;> cases o' <;> first | rfl | exact absurd rfl h
    all_goals first | rfl | exact absurd rfl h | (cases o <;> rfl) | (cases o' <;> rfl)
  ext r s h := by
    have hvalue (o : ValueOption) : o.get r = o.get s := h (.value o)
    have hmetrics : r.noMetrics = s.noMetrics := h .noMetrics
    have hquiet : r.quiet = s.quiet := h .quiet
    obtain ⟨_, _, _, _, _, _, _, _⟩ := r
    obtain ⟨_, _, _, _, _, _, _, _⟩ := s
    obtain rfl := hvalue .config
    obtain rfl := hvalue .backend
    obtain rfl := hvalue .pcap
    obtain rfl := hvalue .iface
    obtain rfl := hvalue .liveCmd
    obtain rfl := hvalue .json
    obtain rfl := hmetrics
    obtain rfl := hquiet
    rfl

/-- An option on the command line. -/
inductive Opt where
  | value (o : ValueOption) (v : String)
  | demo
  | noMetrics
  | quiet

namespace Opt

/-- The words that give the option. -/
def words : Opt → List String
  | value o v => [o.flag, v]
  | demo => ["--demo"]
  | noMetrics => ["--no-metrics"]
  | quiet => ["--quiet"]

/-- The demo is a backend. -/
def assignment : Opt → Σ f : ArgField, f.Value
  | value o v => ⟨.value o, some v⟩
  | demo => ⟨.value .backend, some "synthetic"⟩
  | noMetrics => ⟨.noMetrics, true⟩
  | quiet => ⟨.quiet, true⟩

end Opt

/-- The words that no option starts with: help is asked for, a value is missing, or the first word
is unknown. -/
inductive Stops : List String → Stop → Prop where
  | help {arg : String} (it : List String) (h : arg = "-h" ∨ arg = "--help") : Stops (arg :: it) .help
  | missing (o : ValueOption) : Stops [o.flag] (.failed s!"{o.flag} needs a value")
  | unknown {arg : String} (it : List String)
      (h : arg ∉ ["-h", "--help", "--config", "--backend", "--pcap", "--iface", "--live-cmd",
        "--json", "--demo", "--no-metrics", "--quiet"]) :
      Stops (arg :: it) (.failed s!"unknown argument '{arg}' (try --help)")

/-! ## Walking over the words -/

/-- The word of a value option takes its arm. -/
theorem Arm.of_flag (o : ValueOption) : Arm.of o.flag = value o := by cases o <;> rfl

/-- The words of an option are consumed. -/
theorem parseArgsFrom_words (a : Args) (o : Opt) (it : List String) :
    parseArgsFrom a (o.words ++ it) = parseArgsFrom (Args.fields.assign a o.assignment) it := by
  cases o with
  | value o v =>
      show parseArgsFrom a (o.flag :: v :: it) = _
      rw [parseArgsFrom.eq_def]
      simp only [Arm.of_flag]
      rfl
  | demo => rfl
  | noMetrics => rfl
  | quiet => rfl

/-- Options are laid over the arguments, in order. -/
theorem parseArgsFrom_opts (a : Args) (opts : List Opt) (it : List String) :
    parseArgsFrom a (opts.flatMap Opt.words ++ it)
      = parseArgsFrom (Args.fields.overlay a (opts.map Opt.assignment)) it := by
  induction opts generalizing a with
  | nil => rfl
  | cons o opts ih =>
      rw [List.flatMap_cons, List.append_assoc, parseArgsFrom_words, ih]
      rfl

/-- The walk stops there. -/
theorem Stops.parseArgsFrom_eq {it : List String} {stop : Stop} (h : Stops it stop) (a : Args) :
    parseArgsFrom a it = .error stop := by
  cases h with
  | help it h => rcases h with rfl | rfl <;> rfl
  | missing o =>
      rw [parseArgsFrom.eq_def]
      simp only [Arm.of_flag]
  | @unknown arg it h =>
      have hother : Arm.of arg = .other := by
        unfold Arm.of
        split <;> first | rfl | exact absurd (by decide) h
      rw [parseArgsFrom.eq_def]
      simp only [hother]

/-- A command line has ended, starts with an option, or stops the walk. -/
theorem words_cases (argv : List String) :
    argv = [] ∨ (∃ (o : Opt) (it : List String), argv = o.words ++ it)
      ∨ ∃ stop, Stops argv stop := by
  rcases argv with _ | ⟨arg, it⟩
  · exact Or.inl rfl
  right
  have hvalue (o : ValueOption) (h : arg = o.flag) :
      (∃ (o : Opt) (it' : List String), arg :: it = o.words ++ it')
        ∨ ∃ stop, Stops (arg :: it) stop := by
    subst h
    rcases it with _ | ⟨v, it⟩
    · exact Or.inr ⟨_, .missing o⟩
    · exact Or.inl ⟨.value o v, it, rfl⟩
  by_cases h : arg ∈ ["-h", "--help", "--config", "--backend", "--pcap", "--iface", "--live-cmd",
      "--json", "--demo", "--no-metrics", "--quiet"]
  · simp only [List.mem_cons, List.not_mem_nil, or_false] at h
    rcases h with h | h | h | h | h | h | h | h | rfl | rfl | rfl
    · exact Or.inr ⟨_, .help it (Or.inl h)⟩
    · exact Or.inr ⟨_, .help it (Or.inr h)⟩
    · exact hvalue .config h
    · exact hvalue .backend h
    · exact hvalue .pcap h
    · exact hvalue .iface h
    · exact hvalue .liveCmd h
    · exact hvalue .json h
    · exact Or.inl ⟨.demo, it, rfl⟩
    · exact Or.inl ⟨.noMetrics, it, rfl⟩
    · exact Or.inl ⟨.quiet, it, rfl⟩
  · exact Or.inr ⟨_, .unknown it h⟩

/-- The options at the front of a command line, and what is behind them. -/
theorem exists_opts (argv : List String) :
    ∃ (opts : List Opt) (it : List String), argv = opts.flatMap Opt.words ++ it ∧
      (it = [] ∨ ∃ stop, Stops it stop) := by
  induction hn : argv.length using Nat.strong_induction_on generalizing argv with
  | _ n ih =>
      rcases words_cases argv with hnil | ⟨o, it, rfl⟩ | hstop
      · exact ⟨[], argv, rfl, Or.inl hnil⟩
      · have hlt : it.length < n := by
          rw [← hn, List.length_append]
          cases o <;> simp [Opt.words]
        obtain ⟨opts, it', rfl, hend⟩ := ih _ hlt it rfl
        exact ⟨o :: opts, it', by rw [List.flatMap_cons, List.append_assoc], hend⟩
      · exact ⟨[], argv, rfl, Or.inr hstop⟩

/-- The accepted command lines, and what they come to. -/
theorem parseArgs_ok_iff {argv : List String} {a : Args} :
    parseArgs argv = .ok a ↔ ∃ opts : List Opt, argv = opts.flatMap Opt.words ∧
      a = Args.fields.overlay .default (opts.map Opt.assignment) := by
  constructor
  · intro h
    obtain ⟨opts, it, rfl, rfl | ⟨stop, hstop⟩⟩ := exists_opts argv
    · rw [parseArgs, parseArgsFrom_opts] at h
      cases h
      exact ⟨opts, List.append_nil _, rfl⟩
    · rw [parseArgs, parseArgsFrom_opts, hstop.parseArgsFrom_eq] at h
      cases h
  · rintro ⟨opts, rfl, rfl⟩
    rw [parseArgs, ← List.append_nil (opts.flatMap Opt.words), parseArgsFrom_opts]
    rfl

/-- **The command lines.**  They are accepted exactly if they are concatenations of options, and
then each setting is what the last option for it says, or its default.  The others are rejected for
the first word that is no option's: it asks for help, lacks its value or is unknown. -/
theorem parseArgs_exact (argv : List String) :
    (∀ a, parseArgs argv = .ok a ↔ ∃ opts : List Opt, argv = opts.flatMap Opt.words ∧
      ∀ f : ArgField, f.get a
        = (Fields.lastValue f (opts.map Opt.assignment)).getD (f.get .default)) ∧
    ∀ stop, parseArgs argv = .error stop ↔ ∃ (opts : List Opt) (it : List String),
      argv = opts.flatMap Opt.words ++ it ∧ Stops it stop := by
  refine ⟨fun a => ?_, fun stop => ⟨fun h => ?_, ?_⟩⟩
  · rw [parseArgs_ok_iff]
    refine exists_congr fun opts => and_congr_right fun _ => ?_
    exact Args.fields.eq_overlay_iff
  · obtain ⟨opts, it, rfl, rfl | ⟨stop', hstop⟩⟩ := exists_opts argv
    · rw [parseArgs, parseArgsFrom_opts] at h
      cases h
    · rw [parseArgs, parseArgsFrom_opts, hstop.parseArgsFrom_eq] at h
      cases h
      exact ⟨opts, it, rfl, hstop⟩
  · rintro ⟨opts, it, rfl, hstop⟩
    rw [parseArgs, parseArgsFrom_opts, hstop.parseArgsFrom_eq]
