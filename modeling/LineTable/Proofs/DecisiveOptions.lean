/-
The options that decide a command line at once, and what counts without them.

The words are read from the left.  Those that decide nothing leave a level and positional words
behind, and the first one that decides something settles the answer: neither what was left
behind nor the words after it are looked at.  Where no word decides, a command line is run if its
positional words are a binary and the words of a command, and refused otherwise
(`first_option_decides`).
-/
import LineTable.Proofs.CommandLines

namespace LineTable
namespace CommandLine

variable {word name : String} {words operands : List String} {answer : Except String Action}
variable {level : Log.Level} {command : Command}

/-! ## Deciding words -/

def helpOptions : List String := ["-h", "--help"]

def versionOptions : List String := ["-v", "-V", "--version"]

def knownOptions : List String := helpOptions ++ versionOptions ++ levelOptions.map Prod.fst

/-- What a word makes of a command line, whatever stands behind it: it asks for help or for the
version, or it is refused as an option that nothing is known of. -/
inductive Decides : String → Except String Action → Prop
  | help {word : String} (h : word ∈ helpOptions) : Decides word (.ok .help)
  | version {word : String} (h : word ∈ versionOptions) : Decides word (.ok .version)
  | unknown {word : String} (h : OptionLike word) (hunknown : word ∉ knownOptions) :
      Decides word (.error ("unknown option: " ++ word))

def Decisive (word : String) : Prop := ∃ answer, Decides word answer

/-- The answer is that of the first deciding word. -/
def Decided (words : List String) (answer : Except String Action) : Prop :=
  ∃ front word behind, words = front ++ word :: behind ∧ (∀ w ∈ front, ¬Decisive w) ∧
    Decides word answer

/-- What the reader of the words makes of one that decides. -/
def verdict? (word : String) : Option (Except ArgumentError Action) :=
  match Word.ofText word with
  | .help => some (.ok .help)
  | .version => some (.ok .version)
  | .unknownOption => some (.error (.unknownOption word))
  | .level _ => none
  | .positional => none

theorem mem_knownOptions : word ∈ knownOptions ↔
    word ∈ helpOptions ∨ word ∈ versionOptions ∨ ∃ level, (word, level) ∈ levelOptions := by
  simp [knownOptions]

theorem ofText_of_mem_helpOptions (h : word ∈ helpOptions) : Word.ofText word = .help := by
  simp only [helpOptions, List.mem_cons, List.not_mem_nil, or_false] at h
  rcases h with rfl | rfl <;> rfl

theorem ofText_of_mem_versionOptions (h : word ∈ versionOptions) :
    Word.ofText word = .version := by
  simp only [versionOptions, List.mem_cons, List.not_mem_nil, or_false] at h
  rcases h with rfl | rfl | rfl <;> rfl

theorem ofText_of_unknown (h : OptionLike word) (hunknown : word ∉ knownOptions) :
    Word.ofText word = .unknownOption := by
  simp only [knownOptions, helpOptions, versionOptions, levelOptions, List.map_cons, List.map_nil,
    List.cons_append, List.nil_append, List.mem_cons, List.not_mem_nil, or_false, not_or]
    at hunknown
  simp [Word.ofText, hunknown, isOption_iff.2 h]

/-- Every word decides, chooses a level or is none of the options. -/
theorem decisive_or (word : String) :
    Decisive word ∨ (∃ level, (word, level) ∈ levelOptions) ∨ ¬OptionLike word := by
  by_cases hoption : OptionLike word
  · by_cases hknown : word ∈ knownOptions
    · rcases mem_knownOptions.1 hknown with hhelp | hversion | hlevel
      · exact .inl ⟨_, .help hhelp⟩
      · exact .inl ⟨_, .version hversion⟩
      · exact .inr (.inl hlevel)
    · exact .inl ⟨_, .unknown hoption hknown⟩
  · exact .inr (.inr hoption)

theorem Decides.exists_verdict (h : Decides word answer) :
    ∃ verdict, verdict? word = some verdict ∧
      verdict.mapError ArgumentError.message = answer := by
  unfold verdict?
  cases h with
  | help h =>
    rw [ofText_of_mem_helpOptions h]
    exact ⟨_, rfl, rfl⟩
  | version h =>
    rw [ofText_of_mem_versionOptions h]
    exact ⟨_, rfl, rfl⟩
  | unknown h hunknown =>
    rw [ofText_of_unknown h hunknown]
    exact ⟨_, rfl, rfl⟩

theorem not_decisive_iff : ¬Decisive word ↔
    Word.ofText word = .positional ∨ ∃ level, Word.ofText word = .level level := by
  constructor
  · intro h
    rcases decisive_or word with hdecisive | ⟨level, hlevel⟩ | hoption
    · exact absurd hdecisive h
    · exact .inr ⟨level, ofText_of_mem_levelOptions hlevel⟩
    · exact .inl (ofText_of_not_optionLike hoption)
  · rintro hword ⟨answer, h⟩
    obtain ⟨verdict, hverdict, -⟩ := h.exists_verdict
    rcases hword with hword | ⟨level, hword⟩ <;> simp [verdict?, hword] at hverdict

theorem undecided_iff : Undecided words ↔ ∀ word ∈ words, ¬Decisive word :=
  forall₂_congr fun _ _ => not_decisive_iff.symm

theorem parseWords_of_verdict {verdict : Except ArgumentError Action} {before : List String}
    (h : verdict? word = some verdict) (behind : List String) :
    parseWords level before (word :: behind) = verdict := by
  unfold verdict? at h
  rw [parseWords]
  cases hword : Word.ofText word <;> rw [hword] at h <;> cases h <;> rfl

theorem parse_of_decided (h : Decided words answer) :
    (parse words).mapError ArgumentError.message = answer := by
  obtain ⟨front, word, behind, rfl, hfront, hword⟩ := h
  obtain ⟨verdict, hverdict, rfl⟩ := hword.exists_verdict
  rw [parse, parseWords_append (undecided_iff.2 hfront), parseWords_of_verdict hverdict]

theorem exists_decided (h : ∃ word ∈ words, Decisive word) : ∃ answer, Decided words answer := by
  classical
  obtain ⟨first, hfirst⟩ : ∃ first, words.find? (fun w => Decisive w) = some first := by
    rw [← Option.isSome_iff_exists, List.find?_isSome]
    simpa using h
  obtain ⟨hdecisive, front, behind, hsplit, hfront⟩ := List.find?_eq_some_iff_append.1 hfirst
  obtain ⟨answer, hanswer⟩ := of_decide_eq_true hdecisive
  exact ⟨answer, front, first, behind, hsplit, by simpa using hfront, hanswer⟩

/-! ## Words without a deciding one -/

/-- The level that the last level option chooses. -/
def lastLevel (words : List String) : Log.Level :=
  (words.filterMap (levelOptions.lookup ·)).getLastD .info

/-- The words that are no level options. -/
def remaining (words : List String) : List String :=
  words.filter fun word => (levelOptions.lookup word).isNone

theorem optionLike_of_mem_levelOptions (h : (word, level) ∈ levelOptions) : OptionLike word := by
  by_contra hnot
  have hlevel := ofText_of_mem_levelOptions h
  rw [ofText_of_not_optionLike hnot] at hlevel
  contradiction

theorem levelOf?_eq_lookup (h : ¬Decisive word) : levelOf? word = levelOptions.lookup word := by
  rcases decisive_or word with hdecisive | ⟨level, hlevel⟩ | hoption
  · exact absurd hdecisive h
  · simp only [levelOptions, List.mem_cons, Prod.mk.injEq, List.not_mem_nil, or_false] at hlevel
    rcases hlevel with ⟨rfl, -⟩ | ⟨rfl, -⟩ | ⟨rfl, -⟩ | ⟨rfl, -⟩ <;> rfl
  · have hnone : levelOptions.lookup word = none := by
      rw [List.lookup_eq_none_iff]
      intro entry hmem
      have hentry : OptionLike entry.1 := optionLike_of_mem_levelOptions hmem
      refine bne_iff_ne.2 fun heq => hoption ?_
      rwa [heq]
    rw [hnone, levelOf?, ofText_of_not_optionLike hoption]

theorem levels_eq (h : ∀ word ∈ words, ¬Decisive word) :
    levels words = words.filterMap (levelOptions.lookup ·) :=
  List.filterMap_congr fun word hword => levelOf?_eq_lookup (h word hword)

theorem positionals_eq (h : ∀ word ∈ words, ¬Decisive word) :
    positionals words = remaining words := by
  refine List.filter_congr fun word hword => ?_
  rw [← levelOf?_eq_lookup (h word hword), levelOf?]
  rcases not_decisive_iff.1 (h word hword) with hkind | ⟨level, hkind⟩ <;> simp [hkind]

/-- Without a deciding word the last level and the remaining words in order are all that
counts. -/
theorem parse_of_not_decisive (h : ∀ word ∈ words, ¬Decisive word) :
    parse words = .run <$> parseInvocation (lastLevel words) (remaining words) := by
  rw [parse_of_undecided (undecided_iff.2 h), levels_eq h, positionals_eq h, lastLevel]

/-! ## Commands -/

/-- The words of a command, with any text that its operands are read from. -/
inductive Command.WrittenAs : Command → List String → Prop
  | units : WrittenAs .units ["units"]
  | addr {a : UInt64} {text : String} (h : StatesAddress a text.toList) :
      WrittenAs (.addr a) ["addr", text]
  | line {unit : String} {l : Int64} {text : String} (h : Number.IsSigned l.toInt text.toList) :
      WrittenAs (.line unit l) ["line", unit, text]
  | next {a : UInt64} {text : String} (h : StatesAddress a text.toList) :
      WrittenAs (.next a) ["next", text]
  | stmt {a : UInt64} {text : String} (h : StatesAddress a text.toList) :
      WrittenAs (.stmt a) ["stmt", text]

theorem parseCommand_eq_ok_iff :
    parseCommand name operands = .ok command ↔ command.WrittenAs (name :: operands) := by
  constructor
  · unfold parseCommand
    split
    · intro h
      cases h
      exact .units
    all_goals simp only [map_eq_ok_iff, parseAddress_eq_ok_iff, parseLine_eq_ok_iff,
      reduceCtorEq, false_implies]
    · rintro ⟨a, h, rfl⟩
      exact .addr h
    · rintro ⟨a, h, rfl⟩
      exact .next h
    · rintro ⟨a, h, rfl⟩
      exact .stmt h
    · rintro ⟨l, h, rfl⟩
      exact .line h
  · intro h
    cases h with
    | units => rfl
    | addr h | next h | stmt h =>
      simp only [parseCommand, parseAddress_eq_ok_iff.2 h]
      rfl
    | line h =>
      simp only [parseCommand, parseLine_eq_ok_iff.2 h]
      rfl

theorem parseInvocation_cons (level : Log.Level) (binary name : String) (operands : List String) :
    parseInvocation level (binary :: name :: operands) =
      (⟨level, binary, ·⟩) <$> parseCommand name operands := by
  rw [parseInvocation]
  cases parseCommand name operands <;> rfl

theorem parseInvocation_eq_ok_iff {i : Invocation} :
    parseInvocation level words = .ok i ↔
      i.level = level ∧ ∃ rest, words = i.binary :: rest ∧ i.command.WrittenAs rest := by
  constructor
  · intro h
    match words with
    | [] | [_] => contradiction
    | binary :: name :: operands =>
      rw [parseInvocation_cons, map_eq_ok_iff] at h
      obtain ⟨command, hcommand, rfl⟩ := h
      exact ⟨rfl, name :: operands, rfl, parseCommand_eq_ok_iff.1 hcommand⟩
  · obtain ⟨chosen, binary, command⟩ := i
    rintro ⟨rfl, rest, rfl, h⟩
    obtain ⟨name, operands, rfl⟩ : ∃ name operands, rest = name :: operands := by
      cases h <;> exact ⟨_, _, rfl⟩
    rw [parseInvocation_cons, parseCommand_eq_ok_iff.2 h]
    rfl

/-- The first deciding word gives the answer, whatever the words around it are.  Without one the
answer depends on the last level option and on the other words in order: if these are a binary
and the words of a command, this is run, and else the answer is an error. -/
theorem first_option_decides (words : List String) :
    ((∃ word ∈ words, Decisive word) →
      ∀ answer, (parse words).mapError ArgumentError.message = answer ↔ Decided words answer) ∧
    ((∀ word ∈ words, ¬Decisive word) →
      parse words = .run <$> parseInvocation (lastLevel words) (remaining words) ∧
      (∀ i, parse words = .ok (.run i) ↔ i.level = lastLevel words ∧
        ∃ rest, remaining words = i.binary :: rest ∧ i.command.WrittenAs rest) ∧
      parse words ≠ .ok .help ∧ parse words ≠ .ok .version) := by
  constructor
  · intro h answer
    obtain ⟨first, hfirst⟩ := exists_decided h
    constructor
    · rintro rfl
      rwa [parse_of_decided hfirst]
    · exact parse_of_decided
  · intro h
    have hparse := parse_of_not_decisive h
    refine ⟨hparse, fun i => ?_, ?_, ?_⟩
    · rw [hparse, map_eq_ok_iff, ← parseInvocation_eq_ok_iff]
      simp
    all_goals
      rw [hparse, ne_eq, map_eq_ok_iff]
      simp

theorem first_option_decides_sample :
    (parse ["a.out", "addr", "zz", "-q", "--frobnicate", "-h"]).mapError ArgumentError.message =
        .error "unknown option: --frobnicate" ∧
      parse ["-d", "a.out", "next", "--quiet", "0X+1f"] =
        .ok (.run ⟨.warn, "a.out", .next 31⟩) := by
  have hunknown : Decides "--frobnicate" (.error ("unknown option: " ++ "--frobnicate")) :=
    .unknown (isOption_iff.1 rfl) (by decide)
  have hfront : ∀ w ∈ ["a.out", "addr", "zz", "-q"], ¬Decisive w := by
    simp only [List.forall_mem_cons, not_decisive_iff]
    exact ⟨.inl rfl, .inl rfl, .inl rfl, .inr ⟨_, rfl⟩, nofun⟩
  have hnone : ∀ w ∈ ["-d", "a.out", "next", "--quiet", "0X+1f"], ¬Decisive w := by
    simp only [List.forall_mem_cons, not_decisive_iff]
    exact ⟨.inr ⟨_, rfl⟩, .inl rfl, .inl rfl, .inr ⟨_, rfl⟩, .inl rfl, nofun⟩
  have hdigits : Number.IsDigits 16 31 ['1', 'f'] := ⟨[1, 15], by decide, by decide, rfl, rfl⟩
  have hrest : remaining ["-d", "a.out", "next", "--quiet", "0X+1f"] =
      ["a.out", "next", "0X+1f"] := by decide
  constructor
  · have hdecisive := (first_option_decides
      ["a.out", "addr", "zz", "-q", "--frobnicate", "-h"]).1
    exact (hdecisive ⟨"--frobnicate", by decide, _, hunknown⟩ _).2
      ⟨_, _, ["-h"], rfl, hfront, hunknown⟩
  · obtain ⟨-, hrun, -⟩ := (first_option_decides
      ["-d", "a.out", "next", "--quiet", "0X+1f"]).2 hnone
    exact (hrun ⟨.warn, "a.out", .next 31⟩).2
      ⟨rfl, _, hrest, .next (.hex (.inr rfl) (.plus hdigits))⟩

end CommandLine
end LineTable
