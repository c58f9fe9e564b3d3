import UtxoLedger.Text.Decimal

/-!
# Command-line arguments

Options belong to a level: the program itself, or one of its commands. A value
stands in the argument after its option, or in the same one; a value of its own
argument does not start with a dash, unless it is a negative number where a signed
number is wanted. An option comes at most once on its level.
-/
namespace UtxoLedger.Command

/-- The options of all commands; a few belong to several of them. -/
inductive OptionName
  | config
  | size
  | utxos
  | height
  | key
  | recipient
  | amount
  | payload
  | tx
  | keys
  deriving DecidableEq, Repr

/-- What the value of an option has to be. -/
inductive ValueKind
  | text
  /-- A file name, which is never empty. -/
  | path
  | word
  | signed
  deriving DecidableEq, Repr

/-- A value that was read. A file name is a text from here on. -/
inductive Value
  | text (value : String)
  | word (value : UInt64)
  | signed (value : Int)
  deriving DecidableEq, Repr

/-- How an option is written, with a long name behind two dashes or a letter behind one. -/
structure OptionForm where
  name : OptionName
  long : String
  short : Option Char
  kind : ValueKind
  deriving DecidableEq, Repr

/-- The options of a level with their values, in the order in which they came. -/
abbrev Given := List (OptionName × Value)

/-- Reads a value; none where the text is not of that kind. -/
def ValueKind.read? (kind : ValueKind) (text : List Char) : Option Value :=
  match kind with
  | .text => some (.text (String.ofList text))
  | .path => if text.isEmpty then none else some (.text (String.ofList text))
  | .word => (Decimal.read text).toOption.map .word
  | .signed => (Decimal.readSigned text).toOption.map .signed

/-- What an argument is on a level, when it is not taken as a value. -/
inductive Argument
  | plain
  | separator
  | version
  | unknown
  | option (form : OptionForm) (attached : Option (List Char))
  deriving DecidableEq, Repr

/-- The two sides of the first equals sign. -/
def splitAtEquals : List Char → List Char × Option (List Char)
  | [] => ([], none)
  | '=' :: rest => ([], some rest)
  | c :: rest => (c :: (splitAtEquals rest).1, (splitAtEquals rest).2)

/-- An argument behind two dashes, as far as the first equals sign. -/
def Argument.ofLong (forms : List OptionForm) (hasVersion : Bool) (body : List Char) : Argument :=
  let (name, attached) := splitAtEquals body
  match forms.find? fun form => form.long.toList = name with
  | some form => .option form attached
  | none => if hasVersion ∧ body = "version".toList then .version else .unknown

/-- An argument behind one dash. What follows its letter is the value, with or without an equals
sign. -/
def Argument.ofShort (forms : List OptionForm) (hasVersion : Bool) (letter : Char)
    (body : List Char) : Argument :=
  match forms.find? fun form => form.short = some letter with
  | some form =>
    match body with
    | [] => .option form none
    | '=' :: value => .option form (some value)
    | value => .option form (some value)
  | none => if hasVersion ∧ letter = 'V' then .version else .unknown

/-- A dash alone is plain, and so is everything that starts with something else. -/
def Argument.of (forms : List OptionForm) (hasVersion : Bool) : List Char → Argument
  | ['-', '-'] => .separator
  | '-' :: '-' :: body => .ofLong forms hasVersion body
  | '-' :: letter :: body => .ofShort forms hasVersion letter body
  | _ => .plain

def isNegativeNumber : List Char → Bool
  | '-' :: digits => !digits.isEmpty ∧ digits.all fun c => '0' ≤ c ∧ c ≤ '9'
  | _ => false

/-- How the options of a level end. -/
inductive Walk
  | finished (given : Given)
  /-- An argument that belongs to no option, and those behind it. -/
  | plain (argument : String) (rest : List String) (given : Given)
  | version
  | misused
  deriving DecidableEq, Repr

/-- Keeps the value of an option; none where it cannot be read or the option came before. -/
def store? (form : OptionForm) (text : List Char) (given : Given) : Option Given :=
  if given.any fun (name, _) => name = form.name then none
  else (form.kind.read? text).map fun value => given ++ [(form.name, value)]

/-- `pending` is an option whose value has to be the next argument. -/
def walk (forms : List OptionForm) (hasVersion : Bool) (pending : Option OptionForm)
    (given : Given) : List String → Walk
  | [] => if pending.isSome then .misused else .finished given
  | argument :: rest =>
    let meaning := Argument.of forms hasVersion argument.toList
    match pending with
    | some form =>
      -- Anything that could be an option is not taken as a value.
      if meaning = .plain ∨ (form.kind = .signed ∧ isNegativeNumber argument.toList) then
        match store? form argument.toList given with
        | some more => walk forms hasVersion none more rest
        | none => .misused
      else .misused
    | none =>
      match meaning with
      | .plain => .plain argument rest given
      | .separator => if rest.isEmpty then .finished given else .misused
      | .version => .version
      | .unknown => .misused
      | .option form none => walk forms hasVersion (some form) given rest
      | .option form (some text) =>
        match store? form text given with
        | some more => walk forms hasVersion none more rest
        | none => .misused

end UtxoLedger.Command
