import ProcCheck.Text.KeyOrder
import ProcCheck.Text.Lowercase

/-!
# Arguments of a command line

Arguments are options and positionals. An option that starts with two hyphens may carry its
value behind an equals sign, or take the next argument as its value; whether it takes one
depends on its kind. Two hyphens alone end both: what stands behind them is left aside.
-/

namespace ProcCheck

/-- What an option holds: a truth value, a text, or all texts up to the next option. Of an
option that is not known, the next argument is its value if it does not look like an option. -/
inductive OptionKind where
  | flag
  | value
  | list
  | unknown
  deriving DecidableEq, Repr

/-- What an option holds: a truth value, a text, a record of which parts were given, or several
values. -/
inductive OptionValue where
  | on
  | off
  | text (t : Text)
  | record
  | several
  deriving DecidableEq, Repr

namespace OptionValue

/-- What an option of a kind holds that held one value and is given another. Parts make up one
record, a flag is replaced, and anything else makes several values. -/
def join (kind : OptionKind) : OptionValue → OptionValue → OptionValue
  | record, record => record
  | several, _ | _, record => several
  | _, v => if kind = .flag then v else several

/-- How a value that is no text is described. -/
def description : OptionValue → Text
  | on => "type boolean (true)"
  | off => "type boolean (false)"
  | text _ => "type string"
  | record => "an instance of Object"
  | several => "an instance of Array"

end OptionValue

/-- The arguments of a command line, sorted. -/
structure Arguments where
  positionals : List Text := []
  options : List (Text × OptionValue) := []
  aside : List Text := []
  deriving DecidableEq, Repr

namespace Arguments

/-- The arguments with one more positional at the front. -/
def withPositional (t : Text) (a : Arguments) : Arguments :=
  { a with positionals := t :: a.positionals }

/-- The arguments with more options at the front. -/
def withOptions (options : List (Text × OptionValue)) (a : Arguments) : Arguments :=
  { a with options := options ++ a.options }

/-- Whether a text is a number: digits, in which a point may stand if a digit follows it. -/
def isNumber (t : Text) : Bool :=
  t.getLast?.any (·.isDigit) && t.all (fun u => u.isDigit || u == CodeUnit.ofChar '.') &&
    t.count (CodeUnit.ofChar '.') ≤ 1

/-- Whether a text is a hyphen and a number. -/
def isNegativeNumber (t : Text) : Bool := t.startsWith '-' && isNumber (t.drop 1)

/-- Whether an argument starts without a hyphen, or is a negative number. -/
def isPlain (t : Text) : Bool := !(t.startsWith '-') || isNegativeNumber t

/-- The hyphens at the start of a text, counted. -/
def leadingHyphens (t : Text) : Nat := (t.takeWhile (· == CodeUnit.ofChar '-')).length

/-- Whether an argument looks like an option: hyphens and a name, but no negative number. An
equals sign is no name behind three hyphens or more. -/
def looksLikeOption (t : Text) : Bool :=
  let name : Text := t.drop (leadingHyphens t)
  t.startsWith '-' && !name.isEmpty && !isNegativeNumber t &&
    !(3 ≤ leadingHyphens t && Text.startsWith name '=')

/-- The name and the value of an option that is written in one argument. The name has at least
one unit. -/
def splitAtEquals (t : Text) : Text × Option Text :=
  let name := t.take 1 ++ (t.drop 1).takeWhile fun (u : CodeUnit) => u ≠ '='
  (name, if name.length < t.length then some (t.drop (name.length + 1)) else none)

/-- A text without the single or double quotes around it. -/
def unquoted (t : Text) : Text :=
  let isBetween (u : CodeUnit) := t.startsWith u && t.endsWith u && 2 ≤ t.length
  if isBetween .quote || isBetween 0x27 then (t.drop 1).dropLast else t

/-- The value that a text gives to an option of a kind. -/
def valueFor (kind : OptionKind) (t : Text) : OptionValue :=
  match kind with
  | .flag => if t = "true" then .on else .off
  | _ => .text t

/-- How an option is spelled: a name behind two hyphens, a letter behind one, or a letter with a
point and more behind one. -/
inductive Spelling where
  | long
  | letter
  | pointed
  deriving DecidableEq, Repr

/-- Whether an option that is not a flag takes an argument as its value: a long name takes plain
ones, a letter what is no name behind one or two hyphens, and a pointed letter nothing that
starts with a hyphen. -/
def Spelling.takes (s : Spelling) (next : Text) : Bool :=
  match s with
  | .long => isPlain next
  | .letter =>
    let n := leadingHyphens next
    n = 0 || 3 ≤ n || n = next.length || isNegativeNumber next
  | .pointed => !(next.startsWith '-')

/-- An option that may take the next argument as its value. -/
structure Waiting where
  name : Text
  spelling : Spelling := .long
  deriving DecidableEq, Repr

/-- Whether an option of a kind takes the argument behind it as its value. -/
def Waiting.takes (w : Waiting) (kind : OptionKind) (next : Text) : Bool :=
  match kind with
  | .flag => next = "true" || next = "false"
  | _ => w.spelling.takes next

/-- What an option holds that has no value, by its kind. -/
def bare (name : Text) : OptionKind → List (Text × OptionValue)
  | .value => [(name, .text [])]
  | .list => []
  | _ => [(name, .on)]

/-- What an argument is on its own. The last option in an argument is `waiting` if the next
argument may be its value. -/
inductive Shape where
  | endOfOptions
  | positional
  | options (settled : List (Text × OptionValue)) (waiting : Option Waiting)
  deriving DecidableEq, Repr

/-- The start of a name that turns an option off. -/
def negation : Text := "no-"

/-- What a name behind two hyphens stands for. A list without a value that stands `last` gets
none. -/
def longShape (kind : Text → OptionKind) (last : Bool) (t : Text) : Shape :=
  match splitAtEquals t with
  | (name, some value) =>
    if kind name = .list then
      .options (if last && value.isEmpty then [] else [(name, .text (unquoted value))])
        (some ⟨name, .long⟩)
    else .options [(name, valueFor (kind name) (unquoted value))] none
  | (name, none) =>
    if negation.isPrefixOf name ∧ name ≠ negation then
      .options [(name.drop negation.length, .off)] none
    else .options [] (some ⟨name, .long⟩)

/-- Whether a text is a number behind a letter: it may have an exponent. -/
def isAttachedNumber (t : Text) : Bool :=
  let mantissa := t.takeWhile fun (u : CodeUnit) => u ≠ 'e'
  let exponent : Text := t.drop (mantissa.length + 1)
  let digits : Text := if exponent.startsWith '-' then exponent.drop 1 else exponent
  isNumber mantissa &&
    (mantissa.length = t.length || !digits.isEmpty && digits.all (·.isDigit))

/-- Whether the value of a letter behind a single hyphen follows at once: a hyphen, two units
or more that do not start like a word, or a number behind a letter of the alphabet. -/
def hasValueAttached (u : CodeUnit) (rest : Text) : Bool :=
  rest = "-" || 2 ≤ rest.length && rest.head?.any (!·.isWordUnit) ||
    u.isLetter && isAttachedNumber rest

/-- What letters behind a single hyphen stand for: each is an option, up to one whose value
follows at once. -/
def lettersShape : Text → Shape
  | [] => .positional
  | [u] => .options [] (some ⟨[u], .letter⟩)
  | u :: rest =>
    if hasValueAttached u rest then .options [([u], .text rest)] none
    else
      match lettersShape rest with
      | .options settled waiting => .options (([u], .on) :: settled) waiting
      | other => other

/-- What stands behind a single hyphen: letters, or one letter with a point and more, whose
value may stand behind an equals sign. -/
def shortShape (t : Text) : Shape :=
  if Text.startsWith (t.drop 1) '.' ∧ 3 ≤ t.length then
    match splitAtEquals t with
    | (name, some value) =>
      if 3 ≤ name.length then .options [(name, .text value)] none
      else .options [] (some ⟨t, .pointed⟩)
    | (name, none) => .options [] (some ⟨name, .pointed⟩)
  else lettersShape t

/-- What an argument is on its own, given the kinds of options and whether it stands last. -/
def shape (kind : Text → OptionKind) (last : Bool) (arg : Text) : Shape :=
  if arg = "--" then .endOfOptions
  else if !looksLikeOption arg then .positional
  else if Text.startsWith (arg.drop 1) '-' then longShape kind last (arg.drop 2)
  else shortShape (arg.drop 1)

/-- Sorts arguments, given the kinds of options; `waiting` is an option before them that may
take the first as its value. -/
def sortFrom (kind : Text → OptionKind) : Option Waiting → List Text → Arguments
  | none, [] => {}
  | some w, [] => { options := bare w.name (kind w.name) }
  | waiting, arg :: rest =>
    let fresh : Arguments :=
      match shape kind rest.isEmpty arg with
      | .endOfOptions => { aside := rest }
      | .positional => (sortFrom kind none rest).withPositional arg
      | .options settled next => (sortFrom kind next rest).withOptions settled
    match waiting with
    | none => fresh
    | some w =>
      if w.takes (kind w.name) arg then
        (sortFrom kind (if kind w.name = .list then some w else none) rest).withOptions
          [(w.name, valueFor (kind w.name) arg)]
      else fresh.withOptions (bare w.name (kind w.name))

/-- Sorts arguments, given the kinds of options. -/
def sort (kind : Text → OptionKind) (args : List Text) : Arguments := sortFrom kind none args

/-- The option that a name is about: what stands before a point in it. -/
def ownName (name : Text) : Text := name.takeWhile fun (u : CodeUnit) => u ≠ '.'

/-- What was given for an option, each time it was; a name with a point gives a part of it. -/
def given (a : Arguments) (name : Text) : List OptionValue :=
  (a.options.filter (ownName ·.1 = name)).map fun o => if o.1 = name then o.2 else .record

/-- What an option of a kind holds, if it was given. -/
def option? (a : Arguments) (kind : OptionKind) (name : Text) : Option OptionValue :=
  match a.given name with
  | [] => none
  | v :: others => some (others.foldl (·.join kind ·) v)

/-- Whether a flag was given and is not off. -/
def isOn (a : Arguments) (flag : Text) : Bool := (a.option? .flag flag).any (· ≠ .off)

/-- A small letter from `a` to `z` as a capital. -/
def capital (u : CodeUnit) : CodeUnit := if 'a' ≤ u && u ≤ 'z' then u - 0x20 else u

/-- A name with hyphens or underscores written as one word: what stands behind them starts
with a capital. The rest is in small letters, unless the name already mixes both. -/
def joinedName (name : Text) : Text :=
  let mixed := name ≠ name.toLower ∧ name ≠ name.map capital
  let plain := if mixed then name else name.toLower
  let words := (plain.splitOnP fun u => u == CodeUnit.ofChar '-' || u == CodeUnit.ofChar '_').filter
    (!·.isEmpty)
  match words with
  | [] => []
  | first :: others =>
    first ++ others.flatMap fun
      | u :: word => capital u :: word
      | [] => []

/-- The names that an option goes by: what stands before a point in it and, if it has hyphens,
that in one word. -/
def namesOf (name : Text) : List Text :=
  let own := ownName name
  if name.contains (CodeUnit.ofChar '-') then [own, joinedName own] else [own]

/-- The names of the options that are not among `known`, each once: those that are indices in
ascending order, then the others in the order of their first use. -/
def unknownNames (a : Arguments) (known : List Text) : List Text :=
  let names := (a.options.map (·.1)).filter fun name => !known.contains (ownName name)
  Text.inKeyOrder id (names.flatMap namesOf).eraseDups

end Arguments

end ProcCheck
