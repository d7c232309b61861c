/-
Command lines: what the words of a command are read as.

Words that decide at once apart, only the level options and the positional words count: the
last of the former gives the level, and the latter are a binary and a command in the order in
which they stand (`parse_of_undecided`).  An operand is read from the texts that state its
value and from no other (`parseAddress_eq_ok_iff`, `parseLine_eq_ok_iff`).  So every spelling
of a command is read as that command, and level options sprinkled over its words change the
level and nothing else (`parse_spelled`).
-/
import LineTable.CommandLine.Arguments
import LineTable.Proofs.Numerals

namespace LineTable
namespace CommandLine

variable {word unit binary text : String} {words spread before : List String}
variable {level : Log.Level} {added : List Log.Level} {a : UInt64} {l : Int64} {command : Command}

/-! ## Words that are no options -/

/-- A dash and then another dash or a letter. -/
def OptionLike (word : String) : Prop :=
  ∃ c rest, word.toList = '-' :: c :: rest ∧ (c = '-' ∨ c.isAlpha)

theorem isOption_iff : isOption word ↔ OptionLike word := by
  unfold isOption OptionLike
  split
  · next c rest heq => simp [heq]
  · next h =>
    constructor
    · intro hfalse
      contradiction
    · rintro ⟨c, rest, heq, -⟩
      exact absurd heq (h c rest)

theorem ofText_of_not_optionLike (h : ¬OptionLike word) : Word.ofText word = .positional := by
  have hne (option : String) (hoption : isOption option) : word ≠ option := by
    rintro rfl
    exact h (isOption_iff.1 hoption)
  have hisOption : isOption word = false := Bool.eq_false_iff.2 fun h' => h (isOption_iff.1 h')
  simp [Word.ofText, hisOption, hne "-v" rfl, hne "-V" rfl, hne "--version" rfl, hne "-h" rfl,
    hne "--help" rfl, hne "-d" rfl, hne "--debug" rfl, hne "-q" rfl, hne "--quiet" rfl]

/-! ## Words that decide nothing -/

def levelOf? (word : String) : Option Log.Level :=
  match Word.ofText word with
  | .level level => some level
  | _ => none

def levels (words : List String) : List Log.Level := words.filterMap levelOf?

def positionals (words : List String) : List String :=
  words.filter fun word => Word.ofText word = .positional

/-- None of the words is a help, version or unknown option. -/
def Undecided (words : List String) : Prop :=
  ∀ word ∈ words, Word.ofText word = .positional ∨ ∃ level, Word.ofText word = .level level

theorem levels_positional (hword : Word.ofText word = .positional) :
    levels (word :: words) = levels words :=
  List.filterMap_cons_none (by simp [levelOf?, hword])

theorem levels_level (hword : Word.ofText word = .level level) :
    levels (word :: words) = level :: levels words :=
  List.filterMap_cons_some (by simp [levelOf?, hword])

theorem positionals_positional (hword : Word.ofText word = .positional) :
    positionals (word :: words) = word :: positionals words :=
  List.filter_cons_of_pos (by simp [hword])

theorem positionals_level (hword : Word.ofText word = .level level) :
    positionals (word :: words) = positionals words :=
  List.filter_cons_of_neg (by simp [hword])

/-- Words that decide nothing leave their last level and their positional words behind. -/
theorem parseWords_append (h : Undecided words) (behind : List String) :
    parseWords level before (words ++ behind) =
      parseWords ((levels words).getLastD level) ((positionals words).reverse ++ before)
        behind := by
  induction words generalizing level before with
  | nil => rfl
  | cons word words ih =>
    obtain ⟨hword, hrest⟩ := List.forall_mem_cons.1 h
    rw [List.cons_append]
    rcases hword with hword | ⟨chosen, hword⟩
    · simp only [parseWords, hword]
      rw [ih hrest, levels_positional hword, positionals_positional hword, List.reverse_cons,
        List.append_assoc, List.singleton_append]
    · simp only [parseWords, hword]
      rw [ih hrest, levels_level hword, positionals_level hword, List.getLastD_cons]

/-- Of words that decide nothing, the last level and the positional words in order count. -/
theorem parse_of_undecided (h : Undecided words) :
    parse words =
      .run <$> parseInvocation ((levels words).getLastD .info) (positionals words) := by
  have hwords : parseWords .info [] (words ++ []) = _ := parseWords_append h []
  rw [List.append_nil, List.append_nil] at hwords
  rw [parse, hwords, parseWords, List.reverse_reverse]

/-! ## Texts of numbers -/

/-- The texts that an address is read from: an unsigned number, hexadecimal behind its mark and
decimal without one. -/
inductive StatesAddress (a : UInt64) : List Char → Prop
  | decimal {text : List Char} (h : Number.IsUnsigned 10 a.toNat text) : StatesAddress a text
  | hex {mark : Char} {digits : List Char} (hmark : mark = 'x' ∨ mark = 'X')
      (h : Number.IsUnsigned 16 a.toNat digits) : StatesAddress a ('0' :: mark :: digits)

/-- A mark is no decimal digit, so that a text behind a mark is not decimal as well. -/
theorem not_isUnsigned_mark {mark : Char} {n : Nat} {digits : List Char}
    (hmark : mark = 'x' ∨ mark = 'X') : ¬Number.IsUnsigned 10 n ('0' :: mark :: digits) := by
  have hnone : Number.digit? 10 mark = none := by rcases hmark with rfl | rfl <;> rfl
  rw [Number.isUnsigned_iff (by simp)]
  intro h
  have hdigit := h.isSome_digit? (by omega) (List.mem_cons_of_mem _ List.mem_cons_self)
  rw [hnone] at hdigit
  contradiction

theorem parseAddress_eq_ok_iff : parseAddress text = .ok a ↔ StatesAddress a text.toList := by
  have hmarked {mark : Char} (hmark : mark = 'x' ∨ mark = 'X') (digits : List Char) :
      Number.parseUnsigned 16 digits = .ok a ↔ StatesAddress a ('0' :: mark :: digits) := by
    rw [Number.parseUnsigned_eq_ok_iff (by omega) (by omega)]
    constructor
    · exact .hex hmark
    · intro h
      cases h with
      | decimal h => exact absurd h (not_isUnsigned_mark hmark)
      | hex _ h => exact h
  unfold parseAddress
  rw [mapError_eq_ok_iff]
  split
  · next heq => rw [heq, hmarked (.inl rfl)]
  · next heq => rw [heq, hmarked (.inr rfl)]
  · next hlower hupper =>
    rw [Number.parseUnsigned_eq_ok_iff (by omega) (by omega)]
    constructor
    · exact .decimal
    · generalize htext : text.toList = chars
      rintro (h | ⟨rfl | rfl, h⟩)
      · exact h
      · exact absurd htext (hlower _)
      · exact absurd htext (hupper _)

theorem parseLine_eq_ok_iff : parseLine text = .ok l ↔ Number.IsSigned l.toInt text.toList := by
  rw [parseLine, mapError_eq_ok_iff, Number.parseSigned_eq_ok_iff]

/-! ## Spellings -/

theorem not_optionLike_of_head {c : Char} {rest : List Char} (h : word.toList = c :: rest)
    (hc : c ≠ '-') : ¬OptionLike word := by
  rintro ⟨d, behind, hdash, -⟩
  exact hc (List.cons.inj (h.symm.trans hdash)).1

/-- The texts of an address: decimal, or hexadecimal behind its mark. -/
inductive AddressText (a : UInt64) (text : String) : Prop
  | decimal (h : Number.IsNumeral 10 a.toNat text.toList)
  | hex {mark : Char} {digits : List Char} (hmark : mark = 'x' ∨ mark = 'X')
      (htext : text.toList = '0' :: mark :: digits) (h : Number.IsNumeral 16 a.toNat digits)

theorem addressText_toString (a : UInt64) : AddressText a (toString a.toNat) :=
  .decimal (Number.isNumeral_repr a.toNat)

theorem addressText_hex (a : UInt64) : AddressText a (Number.hex a.toNat) :=
  .hex (.inl rfl) (by simp [Number.hex]) (Number.isNumeral_toDigits (by omega) (by omega) 0 a.toNat)

theorem statesAddress_of_addressText (h : AddressText a text) : StatesAddress a text.toList := by
  cases h with
  | decimal h => exact .decimal (.bare (h.isDigits (by omega) (by omega)))
  | hex hmark htext h =>
    rw [htext]
    exact .hex hmark (.bare (h.isDigits (by omega) (by omega)))

theorem parseAddress_of_addressText (h : AddressText a text) : parseAddress text = .ok a :=
  parseAddress_eq_ok_iff.2 (statesAddress_of_addressText h)

theorem not_optionLike_of_addressText (h : AddressText a text) : ¬OptionLike text := by
  cases h with
  | decimal h =>
    obtain ⟨c, rest, htext, hdigit⟩ := h.exists_digit (by omega) (by omega)
    exact not_optionLike_of_head htext (Number.ne_sign_of_digit hdigit).2
  | hex _ htext _ => exact not_optionLike_of_head htext (by decide)

theorem parseLine_of_decimal (h : Number.IsDecimal l.toInt text.toList) :
    parseLine text = .ok l :=
  parseLine_eq_ok_iff.2 h.isSigned

/-- A digit behind the dash tells a negative line from an option. -/
theorem not_optionLike_of_decimal {z : Int} (h : Number.IsDecimal z text.toList) :
    ¬OptionLike text := by
  generalize htext : text.toList = chars at h
  cases h with
  | unsigned h =>
    obtain ⟨c, rest, rfl, hdigit⟩ := h.exists_digit (by omega) (by omega)
    exact not_optionLike_of_head htext (Number.ne_sign_of_digit hdigit).2
  | negative h =>
    obtain ⟨c, rest, rfl, hdigit⟩ := h.exists_digit (by omega) (by omega)
    rintro ⟨d, behind, hdash, hd⟩
    obtain rfl : c = d := by
      rw [htext] at hdash
      exact (List.cons.inj (List.cons.inj hdash).2).1
    rcases hd with hd | hd
    · exact (Number.ne_sign_of_digit hdigit).2 hd
    · exact Number.not_isAlpha_of_digit hdigit hd

/-- The words of a command, with any of the texts of its operands. -/
inductive Command.Spelled : Command → List String → Prop
  | units : Spelled .units ["units"]
  | addr {a : UInt64} {text : String} (h : AddressText a text) : Spelled (.addr a) ["addr", text]
  | line {unit : String} {l : Int64} {text : String} (hunit : ¬OptionLike unit)
      (hline : Number.IsDecimal l.toInt text.toList) :
      Spelled (.line unit l) ["line", unit, text]
  | next {a : UInt64} {text : String} (h : AddressText a text) : Spelled (.next a) ["next", text]
  | stmt {a : UInt64} {text : String} (h : AddressText a text) : Spelled (.stmt a) ["stmt", text]

theorem parseInvocation_of_spelled (h : command.Spelled words) :
    parseInvocation level (binary :: words) = .ok ⟨level, binary, command⟩ := by
  cases h with
  | units => rfl
  | addr h | next h | stmt h =>
    simp only [parseInvocation, parseCommand, parseAddress_of_addressText h]
    rfl
  | line _ hline =>
    simp only [parseInvocation, parseCommand, parseLine_of_decimal hline]
    rfl

theorem ofText_of_spelled (h : command.Spelled words) :
    ∀ word ∈ words, Word.ofText word = .positional := by
  cases h with
  | units => exact List.forall_mem_singleton.2 (by decide)
  | addr h | next h | stmt h =>
    have haddress := ofText_of_not_optionLike (not_optionLike_of_addressText h)
    exact List.forall_mem_cons.2 ⟨by decide, List.forall_mem_singleton.2 haddress⟩
  | line hunit hline =>
    have hname := ofText_of_not_optionLike hunit
    have hnumber := ofText_of_not_optionLike (not_optionLike_of_decimal hline)
    exact List.forall_mem_cons.2 ⟨by decide,
      List.forall_mem_cons.2 ⟨hname, List.forall_mem_singleton.2 hnumber⟩⟩

/-! ## Sprinkled options -/

/-- The options that choose a level. -/
def levelOptions : List (String × Log.Level) :=
  [("-d", .debug), ("--debug", .debug), ("-q", .warn), ("--quiet", .warn)]

theorem ofText_of_mem_levelOptions (h : (word, level) ∈ levelOptions) :
    Word.ofText word = .level level := by
  simp only [levelOptions, List.mem_cons, Prod.mk.injEq, List.not_mem_nil, or_false] at h
  rcases h with ⟨rfl, rfl⟩ | ⟨rfl, rfl⟩ | ⟨rfl, rfl⟩ | ⟨rfl, rfl⟩ <;> rfl

/-- The words with level options anywhere among them, which choose the added levels in order. -/
inductive Sprinkled : List String → List Log.Level → List String → Prop
  | nil : Sprinkled [] [] []
  | word {words : List String} {added : List Log.Level} {spread : List String} (word : String)
      (h : Sprinkled words added spread) : Sprinkled (word :: words) added (word :: spread)
  | option {words : List String} {added : List Log.Level} {spread : List String} {option : String}
      {level : Log.Level} (hoption : (option, level) ∈ levelOptions)
      (h : Sprinkled words added spread) : Sprinkled words (level :: added) (option :: spread)

theorem sprinkled_nil (words : List String) : Sprinkled words [] words := by
  induction words with
  | nil => exact .nil
  | cons word words ih => exact .word word ih

theorem read_sprinkled (h : Sprinkled words added spread)
    (hwords : ∀ word ∈ words, Word.ofText word = .positional) :
    Undecided spread ∧ levels spread = added ∧ positionals spread = words := by
  induction h with
  | nil => exact ⟨fun _ hmem => absurd hmem List.not_mem_nil, rfl, rfl⟩
  | word word h ih =>
    obtain ⟨hword, hrest⟩ := List.forall_mem_cons.1 hwords
    obtain ⟨hundecided, hlevels, hpositionals⟩ := ih hrest
    refine ⟨List.forall_mem_cons.2 ⟨.inl hword, hundecided⟩, ?_, ?_⟩
    · rw [levels_positional hword, hlevels]
    · rw [positionals_positional hword, hpositionals]
  | option hoption h ih =>
    obtain ⟨hundecided, hlevels, hpositionals⟩ := ih hwords
    have hlevel := ofText_of_mem_levelOptions hoption
    refine ⟨List.forall_mem_cons.2 ⟨.inr ⟨_, hlevel⟩, hundecided⟩, ?_, ?_⟩
    · rw [levels_level hlevel, hlevels]
    · rw [positionals_level hlevel, hpositionals]

/-- Every spelling of a command is read as that command.  Level options among its words leave
the binary, the command and its operands as they are, and the last one gives the level. -/
theorem parse_spelled (hbinary : ¬OptionLike binary) (hwords : command.Spelled words) :
    parse (binary :: words) = .ok (.run ⟨.info, binary, command⟩) ∧
      ∀ added spread, Sprinkled (binary :: words) added spread →
        parse spread = .ok (.run ⟨added.getLastD .info, binary, command⟩) := by
  have hpositional : ∀ word ∈ binary :: words, Word.ofText word = .positional :=
    List.forall_mem_cons.2 ⟨ofText_of_not_optionLike hbinary, ofText_of_spelled hwords⟩
  have hspread (added : List Log.Level) (spread : List String)
      (h : Sprinkled (binary :: words) added spread) :
      parse spread = .ok (.run ⟨added.getLastD .info, binary, command⟩) := by
    obtain ⟨hundecided, hlevels, hpositionals⟩ := read_sprinkled h hpositional
    rw [parse_of_undecided hundecided, hlevels, hpositionals, parseInvocation_of_spelled hwords]
    rfl
  exact ⟨hspread [] _ (sprinkled_nil _), hspread⟩

theorem parse_spelled_sample :
    parse ["-5", "line", "-", "-9223372036854775808"] =
        .ok (.run ⟨.info, "-5", .line "-" Int64.minValue⟩) ∧
      parse ["-d", "-5", "line", "--quiet", "-", "-9223372036854775808"] =
        .ok (.run ⟨.warn, "-5", .line "-" Int64.minValue⟩) := by
  have hbinary : ¬OptionLike "-5" := fun h => absurd (isOption_iff.2 h) (by decide)
  have hunit : ¬OptionLike "-" := fun h => absurd (isOption_iff.2 h) (by decide)
  have hline : Number.IsDecimal Int64.minValue.toInt "-9223372036854775808".toList :=
    Number.isDecimal_toString Int64.minValue.toInt
  have hspread : Sprinkled ["-5", "line", "-", "-9223372036854775808"] [.debug, .warn]
      ["-d", "-5", "line", "--quiet", "-", "-9223372036854775808"] :=
    .option (by decide) (.word _ (.word _ (.option (by decide) (.word _ (.word _ .nil)))))
  obtain ⟨hplain, hsprinkled⟩ := parse_spelled hbinary (.line hunit hline)
  exact ⟨hplain, hsprinkled _ _ hspread⟩

end CommandLine
end LineTable
