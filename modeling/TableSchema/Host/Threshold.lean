import TableSchema.Text.Blank
import TableSchema.Text.Split

/-!
# Thresholds

How much of a log is told, from nothing to every detail. A text says so in directives between
commas. A directive is a level, or the start of a name, which makes it one for the messages from
whatever has such a name; a level may follow then behind an equals sign, and without one everything
is told. Brackets confine a directive to messages from within some piece of work. No message says
what work it comes from, so such a directive is for none.

Here all messages come from one program. Among the directives that are for them the one with the
longest start counts, and the last of several with the same. Without any directive errors are told,
but nothing is where there are directives and none of them is for the program.
-/

namespace TableSchema.Host

/-- A threshold for messages: the number of levels that are told, of which there are five, the two
last for details of which there are no messages. -/
abbrev Threshold := Nat

namespace Threshold

/-- The name of what all messages come from. -/
def sender : String := "db2jsonschema"

/-- The threshold for every detail. -/
def everything : Threshold := 5

/-- The names of thresholds, which also have their numbers as names. -/
def words : List String := ["off", "error", "warn", "info", "debug", "trace"]

/-- The number that digits give, which may stand behind a plus sign. -/
def number? (cs : List Char) : Option Nat :=
  let digits := if cs.head? = some '+' then cs.drop 1 else cs
  if digits.isEmpty || !digits.all Char.isDigit then none
  else some (digits.foldl (fun n c => n * 10 + (c.toNat - '0'.toNat)) 0)

/-- The threshold with a name, in capital or small letters, or with a number. -/
def ofWord? (cs : List Char) : Option Threshold :=
  match number? cs with
  | some n => if n ≤ everything then some n else none
  | none => words.idxOf? (String.ofList (cs.map Char.toLower))

end Threshold

/-! ## Directives -/

/-- A part of what is said about a log. -/
inductive Directive where
  /-- for all messages -/
  | plain (threshold : Threshold)
  /-- for messages from what has a name that starts so -/
  | ofSender (start : List Char) (threshold : Threshold)
  /-- for messages from within some piece of work -/
  | within (threshold : Threshold)
  deriving DecidableEq, Repr

namespace Directive

/-- The threshold behind an equals sign, where an empty one leaves nothing out. -/
def level? (cs : List Char) : Option Threshold :=
  if cs.isEmpty then some Threshold.everything else Threshold.ofWord? cs

/-- Reads brackets after the opening one, and what follows them. A name may stand in them, and
after it what the work has to do with, in brackets of its own. -/
def within? (cs : List Char) : Option Directive := do
  let afterName := cs.dropWhile fun c => c ≠ ']' && c ≠ '\x7b'
  let closing ←
    if afterName.head? = some '\x7b' then
      let parts := afterName.drop 1
      if parts.head? = some '\x7d' then none
      else some (parts.dropWhile (· ≠ '\x7d') |>.drop 1)
    else some afterName
  match closing with
  | [']'] => return within .everything
  | ']' :: '=' :: level => return within (← level? level)
  | _ => none

/-- Whether a directive that is no pair of brackets can start with a character. -/
def isStart (c : Char) : Bool :=
  c.isAlphanum || c == '-' || c == ':' || c == '_' || (0x80 ≤ c.toNat && !Text.isBlank c)

/-- Reads a directive. Blanks before it belong to the start of a name. -/
def ofText? (cs : List Char) : Option Directive :=
  match cs.dropWhile Text.isBlank with
  | [] => none
  | '[' :: inside => within? inside
  | c :: _ =>
    let isName (c : Char) : Bool := c ≠ '=' && c ≠ '['
    if !isStart c then none
    else
      match cs.dropWhile isName with
      | [] =>
        match Threshold.ofWord? cs with
        | some threshold => some (plain threshold)
        | none => some (ofSender cs .everything)
      | '[' :: inside => within? inside
      | _ :: level => (level? level).map (ofSender (cs.takeWhile isName))

/-- How closely a directive is for the messages here, if it is. -/
def closeness? : Directive → Option Nat
  | plain _ => some 0
  | ofSender start _ =>
    if start.isPrefixOf Threshold.sender.toList then some (start.length + 1) else none
  | within _ => none

/-- The threshold that a directive gives. -/
def threshold : Directive → Threshold
  | plain t | ofSender _ t | within t => t

/-- The closer of two directives, of which the second may be for other messages. -/
def closer (best : Option Directive) (d : Directive) : Option Directive :=
  match best.bind closeness?, d.closeness? with
  | some n, some m => if n ≤ m then some d else best
  | none, some _ => some d
  | _, none => best

end Directive

namespace Threshold

/-- The threshold that directives give. -/
def ofDirectives : List Directive → Threshold
  | [] => 1
  | ds => ((ds.foldl Directive.closer none).map Directive.threshold).getD 0

/-- The threshold that a text gives, if it can be read. -/
def ofText? (text : String) : Option Threshold :=
  let pieces := (Text.split ',' text.toList).filter (!·.isEmpty)
  (pieces.mapM Directive.ofText?).map ofDirectives

/-- The threshold that a text gives, or else how much is to be told. -/
def choose (text : Option String) (verbosity : Nat) : Threshold :=
  (text.bind ofText?).getD (min everything (3 + verbosity))

example : ofText? "info,db2json=warn,other" = some 2 := by decide +kernel
example : ofText? "other" = some 0 := by decide +kernel
example : ofText? "a b]=" = some 0 ∧ ofText? "=warn" = none := by decide +kernel

end Threshold

end TableSchema.Host
