import Gntp.Assoc
import Gntp.Daemon
import Gntp.Proofs.Fields
import Gntp.Proofs.Numerals
import Gntp.Proofs.Trimming

/-!
# Command lines

A command line is valid if its arguments come apart into options (`Options.Splits`) that go
together; then the last value of each option counts, and every password (`Options.Asks`). Otherwise
what is wrong first (`Options.Offends`) is named, with the usage after it, and nothing behind it is
looked at (`Options.parse_reads`). What is printed quotes the command line as it is, so a line feed
in an argument can make another line of it (`Options.not_always_one_line`).
-/

namespace Gntp

/-! ## Numbers -/

namespace Decimal

variable {s : Bytes} {n low high : Nat} {z : Int}

/-- Blanks, if any, and then the literal of a number with nothing behind it. -/
def Written (s : Bytes) (n : Nat) : Prop :=
  ∃ before text, Bytes.Blank before ∧ s = before ++ text ∧ Literal text n

/-- A literal starts with a sign or a digit. -/
theorem Literal.first (h : Literal s z) (b : UInt8) (hb : s.head? = some b) :
    Bytes.isBlank b = false := by
  cases h with
  | bare hn => exact isBlank_of_digit (hn.digits b (List.mem_of_head? hb))
  | plus hn =>
    cases hb
    decide
  | minus hn =>
    cases hb
    decide

theorem between?_eq_some : between? low high s = some z ↔
    ∃ n : Nat, z = n ∧ Written s n ∧ low ≤ n ∧ n ≤ high := by
  simp only [between?, Option.filter_eq_some_iff, signed?_eq_some, Bool.and_eq_true,
    decide_eq_true_eq]
  constructor
  · rintro ⟨hliteral, hlow, hhigh⟩
    obtain ⟨n, rfl⟩ : ∃ n : Nat, z = n := ⟨z.toNat, by omega⟩
    obtain ⟨before, hblank, hs⟩ := Bytes.exists_trimStart s
    exact ⟨n, rfl, ⟨before, _, hblank, hs, hliteral⟩, by omega, by omega⟩
  · rintro ⟨n, rfl, ⟨before, text, hblank, rfl, hliteral⟩, hlow, hhigh⟩
    rw [Bytes.trimStart_blank_append hblank, Bytes.trimStart_of_first hliteral.first]
    exact ⟨hliteral, by omega, by omega⟩

end Decimal

/-! ## Options and their values -/

namespace Switch

/-- How an option without a value is written. -/
def names : Switch → List Bytes
  | discardResources => [ascii "--discard-resources"]
  | verbose => [ascii "-v", ascii "--verbose"]
  | ignoreUnauthorizedNotify => [ascii "--ignore-unauthorized-notify"]
  | help => [ascii "--help"]

theorem mem_spellings {argument : Bytes} {switch : Switch} :
    (argument, switch) ∈ spellings ↔ argument ∈ switch.names := by
  cases switch <;> simp [spellings, names]

theorem notMem_spellings {argument : Bytes} :
    argument ∉ spellings.map Prod.fst ↔ ∀ switch : Switch, argument ∉ switch.names := by
  simp [← mem_spellings]

end Switch

namespace Setting

variable {setting : Setting} {value : Bytes} {o : Options} {n low high : Nat}

/-- How an option that takes a value is written. -/
def names : Setting → List Bytes
  | host => [ascii "-h", ascii "--host"]
  | port => [ascii "-p", ascii "--port"]
  | password => [ascii "-k", ascii "--password"]
  | store => [ascii "-s", ascii "--store"]
  | memoryLimit => [ascii "--memory-limit"]
  | logFile => [ascii "-l", ascii "--log-file"]
  | readTimeout => [ascii "--read-timeout"]

theorem mem_spellings {argument : Bytes} :
    (argument, setting) ∈ spellings ↔ argument ∈ setting.names := by
  cases setting <;> simp [spellings, names]

theorem notMem_spellings {argument : Bytes} :
    argument ∉ spellings.map Prod.fst ↔ ∀ setting : Setting, argument ∉ setting.names := by
  simp [← mem_spellings]

theorem number?_eq_some : number? low high value = some n ↔
    Decimal.Written value n ∧ low ≤ n ∧ n ≤ high := by
  rw [number?, Option.map_eq_some_iff]
  constructor
  · rintro ⟨z, hz, rfl⟩
    obtain ⟨n, rfl, hwritten, hlow, hhigh⟩ := Decimal.between?_eq_some.1 hz
    exact ⟨hwritten, hlow, hhigh⟩
  · rintro ⟨hwritten, hlow, hhigh⟩
    exact ⟨n, Decimal.between?_eq_some.2 ⟨n, rfl, hwritten, hlow, hhigh⟩, rfl⟩

/-- The range of the numbers that an option takes, if it takes a number. -/
def range? : Setting → Option (Nat × Nat)
  | port => some (1, 65535)
  | memoryLimit => some (1, 65536)
  | readTimeout => some (0, 86400)
  | host | password | store | logFile => none

/-- An option takes any text, or a number in its range. -/
def Takes (setting : Setting) (value : Bytes) : Prop :=
  ∀ range ∈ setting.range?, ∃ n, Decimal.Written value n ∧ range.1 ≤ n ∧ n ≤ range.2

theorem exists_set?_iff : (∃ o', setting.set? value o = some o') ↔ setting.Takes value := by
  unfold Takes
  cases setting with
  | host | password | store | logFile => simp [set?, range?]
  | port | memoryLimit | readTimeout => simp [set?, range?, number?_eq_some]

end Setting

namespace Options

/-- An option as it stands on a command line, with its value if it takes one. -/
inductive Occurrence where
  | on (switch : Switch)
  | given (setting : Setting) (value : Bytes)
  deriving DecidableEq

namespace Occurrence

/-- The value that stands here for an option. -/
def value? (setting : Setting) : Occurrence → Option Bytes
  | on _ => none
  | given other value => if other = setting then some value else none

/-- Takes note of an option. -/
def note? (o : Options) : Occurrence → Option Options
  | on switch => some (switch.apply o)
  | given setting value => setting.set? value o

end Occurrence

/-- All values of an option, the first one first. -/
def valuesOf (setting : Setting) (os : List Occurrence) : List Bytes :=
  os.filterMap (Occurrence.value? setting)

/-- The number that the last one of these values is, or the default if there is none. -/
def IsLast (default : Nat) (values : List Bytes) (n : Nat) : Prop :=
  match values.getLast? with
  | none => n = default
  | some value => Decimal.Written value n

/-- The last one of these values counts, or the default if there is none; of passwords all count. -/
def Holds (o : Options) (values : List Bytes) : Setting → Prop
  | .host => o.host = values.getLastD (ascii "0.0.0.0")
  | .port => IsLast 23053 values o.port
  | .password => o.passwords = values
  | .store => o.storePath = values.getLastD []
  | .memoryLimit => IsLast 64 values o.memoryLimit
  | .logFile => o.logFile = values.getLastD []
  | .readTimeout => IsLast 0 values o.readTimeout

/-- Whether an option without a value is turned on. -/
def isOn (o : Options) : Switch → Bool
  | .discardResources => o.discardResources
  | .verbose => o.verbose
  | .ignoreUnauthorizedNotify => o.ignoreUnauthorizedNotify
  | .help => o.showHelp

/-- What the options on a command line ask for. -/
structure Asks (os : List Occurrence) (o : Options) : Prop where
  holds : ∀ setting, o.Holds (valuesOf setting os) setting
  isOn_iff : ∀ switch, o.isOn switch = true ↔ .on switch ∈ os

/-- Arguments that come apart, from left to right, into options. Whatever stands behind an option
that takes a value is its value. -/
inductive Splits : List Bytes → List Occurrence → Prop
  | nil : Splits [] []
  | on {argument : Bytes} {switch : Switch} {rest : List Bytes} {os : List Occurrence} :
    argument ∈ switch.names → Splits rest os →
    Splits (argument :: rest) (.on switch :: os)
  | given {argument value : Bytes} {setting : Setting} {rest : List Bytes}
    {os : List Occurrence} :
    argument ∈ setting.names → setting.Takes value → Splits rest os →
    Splits (argument :: value :: rest) (.given setting value :: os)

/-- The options leave no host to listen on. -/
def Hostless (os : List Occurrence) : Prop :=
  (valuesOf .host os).getLastD (ascii "0.0.0.0") = []

/-- The options ask for a directory for resources, and for none to be kept. -/
def Contradictory (os : List Occurrence) : Prop :=
  (valuesOf .store os).getLastD [] ≠ [] ∧ .on .discardResources ∈ os

/-- Behind these options come arguments that are wrong, and then others. A text names what is
wrong. -/
inductive Offends (os : List Occurrence) :
    (offending after : List Bytes) → UsageFault → (text : Bytes) → Prop
  | unknown {argument : Bytes} {after : List Bytes} :
    (∀ switch : Switch, argument ∉ switch.names) →
    (∀ setting : Setting, argument ∉ setting.names) →
    Offends os [argument] after (.unknownArgument argument) (ascii "Unknown argument: " ++ argument)
  | missing {argument : Bytes} {setting : Setting} : argument ∈ setting.names →
    Offends os [argument] [] (.missingValue argument) (ascii "Missing value for " ++ argument)
  | bad {argument value : Bytes} {setting : Setting} {after : List Bytes} :
    argument ∈ setting.names → ¬ setting.Takes value →
    Offends os [argument, value] after (.badValue argument value)
      (ascii "Invalid value for " ++ argument ++ ascii ": " ++ value)
  /-- All arguments were read, but the options do not go together. -/
  | emptyHost : Hostless os → Offends os [] [] .emptyHost (ascii "Host must not be empty")
  | storeAndDiscard : ¬ Hostless os → Contradictory os →
    Offends os [] [] .storeAndDiscard
      (ascii "--store and --discard-resources are mutually exclusive")

variable {o o' : Options} {os : List Occurrence} {occurrence : Occurrence}
  {args rest offending after : List Bytes} {argument value text : Bytes} {values : List Bytes}
  {setting other : Setting} {switch : Switch} {fault : UsageFault}

/-! ## Spellings -/

theorem lookup_switch : Switch.spellings.lookup argument = some switch ↔
    argument ∈ switch.names := by
  rw [← Switch.mem_spellings]
  exact ⟨Assoc.mem_of_lookup, Assoc.lookup_of_mem (by decide +kernel)⟩

theorem lookup_setting : Setting.spellings.lookup argument = some setting ↔
    argument ∈ setting.names := by
  rw [← Setting.mem_spellings]
  exact ⟨Assoc.mem_of_lookup, Assoc.lookup_of_mem (by decide +kernel)⟩

theorem lookup_eq_none {α : Type} {spellings : List (Bytes × α)} :
    spellings.lookup argument = none ↔ argument ∉ spellings.map Prod.fst := by
  rw [Assoc.mem_keys_iff_lookup, Option.not_isSome_iff_eq_none]

theorem lookup_switch_eq_none : Switch.spellings.lookup argument = none ↔
    ∀ switch : Switch, argument ∉ switch.names :=
  lookup_eq_none.trans Switch.notMem_spellings

theorem lookup_setting_eq_none : Setting.spellings.lookup argument = none ↔
    ∀ setting : Setting, argument ∉ setting.names :=
  lookup_eq_none.trans Setting.notMem_spellings

/-- No option is written with a value and without one. -/
theorem lookup_switch_of_setting (h : argument ∈ setting.names) :
    Switch.spellings.lookup argument = none := by
  have hall : ∀ entry ∈ Setting.spellings, Switch.spellings.lookup entry.1 = none := by
    decide +kernel
  exact hall _ (Setting.mem_spellings.2 h)

/-! ## One option -/

theorem parseArguments_on (h : argument ∈ switch.names) :
    parseArguments o (argument :: rest) = parseArguments (switch.apply o) rest := by
  rw [parseArguments, lookup_switch.2 h]

theorem parseArguments_given (h : argument ∈ setting.names)
    (hset : setting.set? value o = some o') :
    parseArguments o (argument :: value :: rest) = parseArguments o' rest := by
  rw [parseArguments, lookup_switch_of_setting h, lookup_setting.2 h]
  simp only [hset]

theorem isOn_apply {other : Switch} :
    (switch.apply o).isOn other = true ↔ o.isOn other = true ∨ other = switch := by
  cases switch <;> cases other <;> simp [Switch.apply, isOn]

theorem isOn_of_set? (h : setting.set? value o = some o') : o'.isOn switch = o.isOn switch := by
  cases setting with
  | host | password | store | logFile =>
    cases h
    cases switch <;> rfl
  | port | memoryLimit | readTimeout =>
    obtain ⟨n, _, rfl⟩ := Option.map_eq_some_iff.1 h
    cases switch <;> rfl

theorem holds_apply : (switch.apply o).Holds values setting ↔ o.Holds values setting := by
  cases switch <;> cases setting <;> rfl

/-- A value that is given is the last one. -/
theorem holds_of_set? (h : setting.set? value o = some o') (ho : o.Holds values setting) :
    o'.Holds (values ++ [value]) setting := by
  cases setting with
  | password =>
    cases h
    exact congrArg (· ++ [value]) ho
  | host | store | logFile =>
    cases h
    exact List.getLastD_concat.symm
  | port | memoryLimit | readTimeout =>
    obtain ⟨n, hn, rfl⟩ := Option.map_eq_some_iff.1 h
    unfold Holds IsLast
    rw [List.getLast?_concat]
    exact (Setting.number?_eq_some.1 hn).1

theorem holds_of_set?_of_ne (hne : other ≠ setting) (h : setting.set? value o = some o')
    (ho : o.Holds values other) : o'.Holds values other := by
  cases setting with
  | host | password | store | logFile =>
    cases h
    cases other <;> first | exact ho | exact absurd rfl hne
  | port | memoryLimit | readTimeout =>
    obtain ⟨n, _, rfl⟩ := Option.map_eq_some_iff.1 h
    cases other <;> first | exact ho | exact absurd rfl hne

theorem valuesOf_append_singleton : valuesOf setting (os ++ [occurrence]) =
    valuesOf setting os ++ (occurrence.value? setting).toList := by
  rw [valuesOf, List.filterMap_append, ← valuesOf]
  cases h : occurrence.value? setting <;> simp [h]

theorem Asks.nil : Asks [] {} where
  holds setting := by cases setting <;> rfl
  isOn_iff switch := by cases switch <;> simp [isOn]

/-- Options that are noted are asked for. -/
theorem Asks.note (h : Asks os o) (hnote : occurrence.note? o = some o') :
    Asks (os ++ [occurrence]) o' := by
  cases occurrence with
  | on switch =>
    cases hnote
    refine ⟨fun setting => ?_, fun other => ?_⟩
    · rw [holds_apply, valuesOf_append_singleton]
      simpa [Occurrence.value?] using h.holds setting
    · rw [isOn_apply, h.isOn_iff, List.mem_append, List.mem_singleton, Occurrence.on.injEq]
  | given setting value =>
    refine ⟨fun other => ?_, fun switch => ?_⟩
    · rw [valuesOf_append_singleton, Occurrence.value?]
      split
      · next heq =>
        subst heq
        exact holds_of_set? hnote (h.holds setting)
      · next hne =>
        rw [Option.toList_none, List.append_nil]
        exact holds_of_set?_of_ne (Ne.symm hne) hnote (h.holds other)
    · rw [isOn_of_set? hnote, h.isOn_iff]
      simp

/-! ## All options up to an offence -/

theorem asks_of_foldlM (h : os.foldlM Occurrence.note? {} = some o) : Asks os o := by
  induction os using List.reverseRecOn generalizing o with
  | nil =>
    cases h
    exact .nil
  | append_singleton os occurrence ih =>
    rw [List.foldlM_append] at h
    obtain ⟨o₁, hfirst, hlast⟩ := Option.bind_eq_some_iff.1 h
    obtain ⟨_, hnote, hlast⟩ := Option.bind_eq_some_iff.1 hlast
    cases hlast
    exact (ih hfirst).note hnote

/-- The options are noted one after the other, and then the reading goes on. -/
theorem exists_foldlM_of_splits (h : Splits args os) (o : Options) :
    ∃ o', os.foldlM Occurrence.note? o = some o' ∧
      ∀ rest, parseArguments o (args ++ rest) = parseArguments o' rest := by
  induction h generalizing o with
  | nil => exact ⟨o, rfl, fun _ => rfl⟩
  | @on argument switch args os hspelled _ ih =>
    obtain ⟨o', hnoted, hgoes⟩ := ih (switch.apply o)
    refine ⟨o', hnoted, fun rest => ?_⟩
    rw [List.cons_append, parseArguments_on hspelled, hgoes]
  | @given argument value setting args os hspelled htakes _ ih =>
    obtain ⟨o₁, hset⟩ := Setting.exists_set?_iff.2 htakes
    obtain ⟨o', hnoted, hgoes⟩ := ih o₁
    refine ⟨o', ?_, fun rest => ?_⟩
    · rw [List.foldlM_cons, Occurrence.note?, hset]
      exact hnoted
    · rw [List.cons_append, List.cons_append, parseArguments_given hspelled hset, hgoes]

/-- What is asked for by the options that come first. -/
theorem exists_asks_of_splits (h : Splits args os) :
    ∃ o, Asks os o ∧ ∀ rest, parseArguments {} (args ++ rest) = parseArguments o rest := by
  obtain ⟨o, hnoted, hgoes⟩ := exists_foldlM_of_splits h {}
  exact ⟨o, asks_of_foldlM hnoted, hgoes⟩

theorem Asks.hostless_iff (h : Asks os o) : Hostless os ↔ o.host = [] := by
  have hhost : o.host = _ := h.holds .host
  rw [hhost, Hostless]

theorem Asks.contradictory_iff (h : Asks os o) :
    Contradictory os ↔ o.storePath ≠ [] ∧ o.discardResources = true := by
  have hstore : o.storePath = _ := h.holds .store
  have hdiscard : o.discardResources = true ↔ _ := h.isOn_iff .discardResources
  rw [hstore, hdiscard, Contradictory]

theorem Asks.conflict?_eq_none (h : Asks os o) :
    o.conflict? = none ↔ ¬ Hostless os ∧ ¬ Contradictory os := by
  rw [h.hostless_iff, h.contradictory_iff, conflict?]
  split
  · next hhost => simp [hhost]
  · next hhost =>
    split
    · next hboth => simp [hboth]
    · next hnot => exact ⟨fun _ => ⟨hhost, hnot⟩, fun _ => rfl⟩

/-- The reading ends where something is wrong, whatever is behind it. -/
theorem parseArguments_of_offends (h : Asks os o)
    (hoffends : Offends os offending after fault text) :
    parseArguments o (offending ++ after) = (o, some fault) := by
  cases hoffends with
  | unknown hswitch hsetting =>
    rw [List.singleton_append, parseArguments, lookup_switch_eq_none.2 hswitch,
      lookup_setting_eq_none.2 hsetting]
  | missing hspelled =>
    rw [List.append_nil, parseArguments, lookup_switch_of_setting hspelled,
      lookup_setting.2 hspelled]
  | @bad argument value setting after hspelled htakes =>
    have hnone : setting.set? value o = none := by
      rw [← Option.not_isSome_iff_eq_none, Option.isSome_iff_exists, Setting.exists_set?_iff]
      exact htakes
    rw [List.cons_append, List.singleton_append, parseArguments,
      lookup_switch_of_setting hspelled, lookup_setting.2 hspelled]
    simp only [hnone]
  | emptyHost hhost =>
    rw [List.append_nil, parseArguments, conflict?, if_pos (h.hostless_iff.1 hhost)]
  | storeAndDiscard hhost hboth =>
    rw [List.append_nil, parseArguments, conflict?, if_neg (mt h.hostless_iff.2 hhost),
      if_pos (h.contradictory_iff.1 hboth)]

/-- The text that names what is wrong is what is said of it. -/
theorem Offends.message_eq (h : Offends os offending after fault text) : fault.message = text := by
  cases h <;> rfl

/-- Arguments come apart to the end, or up to an argument that is wrong. -/
theorem splits_or_stops (o : Options) (args : List Bytes) : (∃ os, Splits args os) ∨
    ∃ before os offending after fault text, args = before ++ (offending ++ after) ∧
      Splits before os ∧ ∀ os', Offends os' offending after fault text := by
  fun_induction parseArguments o args with
  | case1 => exact .inl ⟨[], .nil⟩
  | case2 o argument rest switch hswitch ih =>
    have hspelled := lookup_switch.1 hswitch
    obtain ⟨os, hsplits⟩ | ⟨before, os, offending, after, fault, text, rfl, hsplits, hoffends⟩ := ih
    · exact .inl ⟨_, .on hspelled hsplits⟩
    · exact .inr ⟨argument :: before, _, offending, after, fault, text, rfl,
        .on hspelled hsplits, hoffends⟩
  | case3 o argument rest hsetting hswitch =>
    refine .inr ⟨[], [], [argument], rest, _, _, rfl, .nil, fun _ => .unknown ?_ ?_⟩
    · exact lookup_switch_eq_none.1 hswitch
    · exact lookup_setting_eq_none.1 hsetting
  | case4 o argument setting hsetting hswitch =>
    exact .inr ⟨[], [], [argument], [], _, _, rfl, .nil,
      fun _ => .missing (lookup_setting.1 hsetting)⟩
  | case5 o argument setting hsetting hswitch value rest hset =>
    refine .inr ⟨[], [], [argument, value], rest, _, _, rfl, .nil,
      fun _ => .bad (lookup_setting.1 hsetting) fun htakes => ?_⟩
    obtain ⟨o', ho'⟩ := Setting.exists_set?_iff.2 htakes
    exact Option.some_ne_none o' (ho'.symm.trans hset)
  | case6 o₁ argument setting hsetting hswitch value rest o hset ih =>
    have hspelled := lookup_setting.1 hsetting
    have htakes : setting.Takes value := Setting.exists_set?_iff.1 ⟨o, hset⟩
    obtain ⟨os, hsplits⟩ | ⟨before, os, offending, after, fault, text, rfl, hsplits, hoffends⟩ := ih
    · exact .inl ⟨_, .given hspelled htakes hsplits⟩
    · exact .inr ⟨argument :: value :: before, _, offending, after, fault, text, rfl,
        .given hspelled htakes hsplits, hoffends⟩

/-- Options that come apart to the end, and what they ask for. -/
theorem parseArguments_of_splits (h : Splits args os) :
    ∃ o, Asks os o ∧ parseArguments {} args = (o, o.conflict?) := by
  obtain ⟨o, hasks, hgoes⟩ := exists_asks_of_splits h
  have hend := hgoes []
  rw [List.append_nil] at hend
  exact ⟨o, hasks, hend⟩

/-- A conflict is what is wrong behind all options. -/
theorem Asks.offends_of_conflict? (h : Asks os o) (hfault : o.conflict? = some fault) :
    ∃ text, Offends os [] [] fault text := by
  unfold conflict? at hfault
  split at hfault
  · next hhost =>
    cases hfault
    exact ⟨_, .emptyHost (h.hostless_iff.2 hhost)⟩
  · next hhost =>
    split at hfault
    · next hboth =>
      cases hfault
      exact ⟨_, .storeAndDiscard (mt h.hostless_iff.1 hhost) (h.contradictory_iff.2 hboth)⟩
    · cases hfault

/-- Where nothing is found to be wrong, the arguments are options that go together. -/
theorem parseArguments_valid_iff : (parseArguments {} args).2 = none ↔
    ∃ os, Splits args os ∧ ¬ Hostless os ∧ ¬ Contradictory os := by
  constructor
  · intro h
    obtain ⟨os, hsplits⟩ | ⟨before, os, offending, after, fault, text, rfl, hsplits, hoffends⟩ :=
      splits_or_stops {} args
    · obtain ⟨o, hasks, heq⟩ := parseArguments_of_splits hsplits
      rw [heq] at h
      exact ⟨os, hsplits, hasks.conflict?_eq_none.1 h⟩
    · obtain ⟨o, hasks, hgoes⟩ := exists_asks_of_splits hsplits
      rw [hgoes, parseArguments_of_offends hasks (hoffends os)] at h
      cases h
  · rintro ⟨os, hsplits, hfine⟩
    obtain ⟨o, hasks, heq⟩ := parseArguments_of_splits hsplits
    rw [heq]
    exact hasks.conflict?_eq_none.2 hfine

/-- What is found to be wrong is the first offence. -/
theorem exists_offends_of_parseArguments (h : parseArguments {} args = (o, some fault)) :
    ∃ before os offending after text, args = before ++ (offending ++ after) ∧
      Splits before os ∧ Asks os o ∧ Offends os offending after fault text := by
  obtain ⟨os, hsplits⟩ | ⟨before, os, offending, after, other, text, rfl, hsplits, hoffends⟩ :=
    splits_or_stops {} args
  · obtain ⟨o₁, hasks, heq⟩ := parseArguments_of_splits hsplits
    rw [heq] at h
    obtain ⟨rfl, hfault⟩ := Prod.mk.inj h
    obtain ⟨text, hoffends⟩ := hasks.offends_of_conflict? hfault
    exact ⟨args, os, [], [], text, (List.append_nil args).symm, hsplits, hasks, hoffends⟩
  · obtain ⟨o₁, hasks, hgoes⟩ := exists_asks_of_splits hsplits
    rw [hgoes, parseArguments_of_offends hasks (hoffends os)] at h
    cases h
    exact ⟨before, os, offending, after, text, rfl, hsplits, hasks, hoffends os⟩

/-! ## What is printed -/

/-- What the error stream gets while a command line is read. -/
def printed (commandLine : List Bytes) : Bytes :=
  ((parse commandLine).2.map (complaint (program commandLine))).getD []

/-- How a program of this name is used: a line with its name, lines that tell of its options, each
under all the names that it has, and an example. -/
def IsUsage (name usage : Bytes) : Prop :=
  ∃ told : List Bytes,
    usage = ((ascii "Usage: " ++ name ++ ascii " [options]") :: told ++
      [ascii "Example: " ++ name ++ ascii " -p 23053 -k secret"]).flatMap (· ++ [Bytes.lf]) ∧
    (∀ switch : Switch, ∃ line ∈ told,
      (ascii ", ").intercalate switch.names <+: Bytes.trimStart line) ∧
    ∀ setting : Setting, ∃ line ∈ told,
      (ascii ", ").intercalate setting.names <+: Bytes.trimStart line

/-- What is printed for an offence that a text names. The text is quoted as it is, and so is the
name of the program: of the lines behind the first one, only theirs may look like a complaint. -/
structure Complains (name text output : Bytes) : Prop where
  written : ∃ usage, IsUsage name usage ∧
    output = ascii "Error: " ++ text ++ Bytes.lf :: usage
  one_line_iff :
    ((Bytes.splitOn Bytes.lf output).filter (ascii "Error:").isPrefixOf).length = 1 ↔
      ¬ Bytes.lf :: ascii "Error:" <:+: text ∧ ¬ Bytes.lf :: ascii "Error:" <:+: name

theorem isUsage_usage (name : Bytes) : IsUsage name (usage name) := by
  have htells (names : List Bytes) {line : Bytes} (n : Nat) (hline : explanation[n]? = some line)
      (hnames : (ascii ", ").intercalate names <+: Bytes.trimStart line) :
      ∃ line ∈ explanation, (ascii ", ").intercalate names <+: Bytes.trimStart line :=
    ⟨line, List.mem_of_getElem? hline, hnames⟩
  refine ⟨explanation, rfl, fun switch => ?_, fun setting => ?_⟩
  · cases switch with
    | discardResources => exact htells _ 5 rfl (by decide +kernel)
    | verbose => exact htells _ 8 rfl (by decide +kernel)
    | ignoreUnauthorizedNotify => exact htells _ 10 rfl (by decide +kernel)
    | help => exact htells _ 12 rfl (by decide +kernel)
  · cases setting with
    | host => exact htells _ 1 rfl (by decide +kernel)
    | port => exact htells _ 2 rfl (by decide +kernel)
    | password => exact htells _ 3 rfl (by decide +kernel)
    | store => exact htells _ 4 rfl (by decide +kernel)
    | memoryLimit => exact htells _ 6 rfl (by decide +kernel)
    | logFile => exact htells _ 7 rfl (by decide +kernel)
    | readTimeout => exact htells _ 9 rfl (by decide +kernel)

/-- No line of a text starts as a complaint does. -/
def Plain (text : Bytes) : Prop :=
  ¬ ascii "Error:" <+: text ∧ ¬ Bytes.lf :: ascii "Error:" <:+: text

theorem plain_of_mem_explanation : ∀ line ∈ explanation, Plain line := by
  have hlines : ∀ line ∈ explanation, Bytes.lf ∉ line ∧ ¬ ascii "Error:" <+: line := by
    decide +kernel
  intro line hmem
  obtain ⟨hlf, hplain⟩ := hlines line hmem
  exact ⟨hplain, fun hinside => hlf (hinside.subset List.mem_cons_self)⟩

/-- A name that is quoted in a line is all that may make other lines of it. -/
theorem plain_quoted_iff {before name after : Bytes} (hbefore : Bytes.lf ∉ before)
    (hafter : Bytes.lf ∉ after) (hfirst : ¬ ascii "Error:" <+: before ++ name ++ 0x20 :: after) :
    Plain (before ++ name ++ 0x20 :: after) ↔ ¬ Bytes.lf :: ascii "Error:" <:+: name := by
  have hnone : ¬ Bytes.lf :: ascii "Error:" <:+: after :=
    fun hinside => hafter (hinside.subset List.mem_cons_self)
  rw [Plain, and_iff_right hfirst, List.append_assoc, Bytes.infix_append_of_notMem hbefore,
    Bytes.infix_append_cons_iff (by decide) (List.cons_ne_nil _ _), or_iff_left hnone]

theorem plain_usage_iff (name : Bytes) : Plain (ascii "Usage: " ++ name ++ ascii " [options]") ↔
    ¬ Bytes.lf :: ascii "Error:" <:+: name :=
  plain_quoted_iff (by decide) (by decide) (by simp [ascii])

theorem plain_example_iff (name : Bytes) :
    Plain (ascii "Example: " ++ name ++ ascii " -p 23053 -k secret") ↔
      ¬ Bytes.lf :: ascii "Error:" <:+: name :=
  plain_quoted_iff (by decide) (by decide) (by simp [ascii])

/-- The texts whose lines are printed for a fault. -/
theorem complaint_eq (name : Bytes) (fault : UsageFault) :
    complaint name fault = ((ascii "Error: " ++ fault.message) ::
      ((ascii "Usage: " ++ name ++ ascii " [options]") :: explanation ++
        [ascii "Example: " ++ name ++ ascii " -p 23053 -k secret"])).flatMap (· ++ [Bytes.lf]) := by
  simp [complaint, usage]

theorem one_line_iff_of_complaint (name : Bytes) (fault : UsageFault) :
    ((Bytes.splitOn Bytes.lf (complaint name fault)).filter
        (ascii "Error:").isPrefixOf).length = 1 ↔
      ¬ Bytes.lf :: ascii "Error:" <:+: fault.message ∧
        ¬ Bytes.lf :: ascii "Error:" <:+: name := by
  have hfirst : ascii "Error:" <+: ascii "Error: " ++ fault.message :=
    ⟨0x20 :: fault.message, rfl⟩
  have hmessage : Bytes.lf :: ascii "Error:" <:+: ascii "Error: " ++ fault.message ↔
      Bytes.lf :: ascii "Error:" <:+: fault.message :=
    Bytes.infix_append_of_notMem (by decide)
  rw [complaint_eq, Bytes.length_filter_flatMap_eq_one_iff (by decide) (by decide) hfirst,
    hmessage]
  refine and_congr_right fun _ => ⟨fun h => ?_, fun h text hmem => ?_⟩
  · exact (plain_usage_iff name).1 (h _ List.mem_cons_self)
  · rcases List.mem_append.1 hmem with husage | hexample
    · rcases List.mem_cons.1 husage with rfl | hexplanation
      · exact (plain_usage_iff name).2 h
      · exact plain_of_mem_explanation text hexplanation
    · rw [List.mem_singleton.1 hexample]
      exact (plain_example_iff name).2 h

theorem complains_complaint (name : Bytes) (fault : UsageFault) :
    Complains name fault.message (complaint name fault) where
  written := ⟨usage name, isUsage_usage name, rfl⟩
  one_line_iff := one_line_iff_of_complaint name fault

/-- What is read from a command line, and what is printed meanwhile. -/
structure Reads (commandLine : List Bytes) (o : Options) (fault? : Option UsageFault) : Prop where
  valid_iff : fault? = none ↔
    ∃ os, Splits commandLine.tail os ∧ ¬ Hostless os ∧ ¬ Contradictory os
  asks : fault? = none → ∀ os, Splits commandLine.tail os → Asks os o
  silent : fault? = none → printed commandLine = []
  /-- The first offence is named, with the usage after it, the options before it stay, and what is
  behind it is not looked at. -/
  refused : ∀ fault, fault? = some fault → ∃ before os offending after text,
    commandLine.tail = before ++ (offending ++ after) ∧ Splits before os ∧ Asks os o ∧
    Offends os offending after fault text ∧
    Complains (commandLine.headD (ascii "gntpd")) text (printed commandLine) ∧
    ∀ name rest, Offends os offending rest fault text →
      parse (name :: (before ++ (offending ++ rest))) = (o, some fault)
  exits : ∀ fault, fault? = some fault → ∀ around files, Daemon.start around commandLine files =
    (.exit 1, { files, errors := printed commandLine })

/-- A command line is valid just if its arguments are options that go together. Otherwise the first
thing that is wrong with it is printed, with the usage. -/
theorem parse_reads (commandLine : List Bytes) :
    Reads commandLine (parse commandLine).1 (parse commandLine).2 where
  valid_iff := parseArguments_valid_iff
  asks h os hsplits := by
    obtain ⟨o, hasks, heq⟩ := parseArguments_of_splits hsplits
    rw [parse, heq]
    exact hasks
  silent h := by rw [printed, h, Option.map_none, Option.getD_none]
  refused fault h := by
    have hparse : parseArguments {} commandLine.tail = ((parse commandLine).1, some fault) :=
      Prod.ext rfl h
    obtain ⟨before, os, offending, after, text, htail, hsplits, hasks, hoffends⟩ :=
      exists_offends_of_parseArguments hparse
    refine ⟨before, os, offending, after, text, htail, hsplits, hasks, hoffends, ?_, ?_⟩
    · rw [printed, h, Option.map_some, Option.getD_some, ← hoffends.message_eq]
      exact complains_complaint _ fault
    · intro name rest hrest
      obtain ⟨o, hbefore, hgoes⟩ := exists_asks_of_splits hsplits
      have hstays : parseArguments {} commandLine.tail = (o, some fault) := by
        rw [htail, hgoes, parseArguments_of_offends hbefore hoffends]
      rw [parse, List.tail_cons, hgoes, parseArguments_of_offends hbefore hrest, ← hstays, hparse]
  exits fault h around files := by
    have hparse : parse commandLine = ((parse commandLine).1, some fault) := Prod.ext rfl h
    rw [Daemon.start, hparse, printed, h, Option.map_some, Option.getD_some]

/-- An argument with a line feed in it is quoted as it is, and may look like another complaint. -/
theorem not_always_one_line : ¬ ∀ commandLine, (parse commandLine).2.isSome = true →
    ((Bytes.splitOn Bytes.lf (printed commandLine)).filter
      (ascii "Error:").isPrefixOf).length = 1 := by
  intro h
  let argument := ascii "x" ++ Bytes.lf :: ascii "Error: y"
  have hparse : (parse [ascii "gntpd", argument]).2 = some (.unknownArgument argument) := by
    decide +kernel
  have hone := h [ascii "gntpd", argument] (Option.isSome_of_eq_some hparse)
  rw [printed, hparse, Option.map_some, Option.getD_some, one_line_iff_of_complaint] at hone
  exact hone.1 ⟨ascii "Unknown argument: x", ascii " y", by decide⟩

/-- An option may be the value of another one, and a sign belongs to a number. -/
example : parse [ascii "gntpd", ascii "-k", ascii "--help", ascii "-p", ascii " +80"] =
    ({ passwords := [ascii "--help"], port := 80 }, none) := by decide +kernel

end Options

end Gntp
