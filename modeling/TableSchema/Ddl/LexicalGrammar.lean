import TableSchema.Ddl.Token

/-!
# The lexical grammar

Which sequences of characters are lexemes, and of which kind, said without a lexer. The classes are
bare words, numbers, strings, quoted names and symbols; a lexer is to take the longest lexeme that
a text starts with.
-/

namespace TableSchema.Ddl.LexicalGrammar

/-! ## Words -/

/-- The characters that a bare word starts with: the letters of ASCII and the underscore. -/
def IsWordStart (c : Char) : Prop := c.isAlpha ∨ c = '_'

/-- The characters that a bare word goes on with: also the digits. -/
def IsWordPart (c : Char) : Prop := IsWordStart c ∨ c.isDigit

/-- A bare word. -/
def IsWord : List Char → Prop
  | [] => False
  | c :: cs => IsWordStart c ∧ ∀ d ∈ cs, IsWordPart d

/-- Whether a word spells a reserved word, in capital or small letters. -/
def Spells (word : List Char) (k : Keyword) : Prop := word.map Char.toUpper = k.text.toList

/-! ## Numbers -/

/-- A sign, or nothing. -/
def IsSign (cs : List Char) : Prop := cs = [] ∨ cs = ['+'] ∨ cs = ['-']

/-- Digits, perhaps none. -/
def AreDigits (cs : List Char) : Prop := ∀ c ∈ cs, c.isDigit

/-- An exponent, or nothing. -/
def IsExponent (cs : List Char) : Prop :=
  cs = [] ∨ ∃ e sign digits, (e = 'e' ∨ e = 'E') ∧ IsSign sign ∧ AreDigits digits ∧ digits ≠ [] ∧
    cs = e :: sign ++ digits

/-- A number: a sign, digits, a point, one more digit at least, and an exponent, where all but the
digits after the point may be missing. -/
def IsNumber (cs : List Char) : Prop :=
  ∃ sign whole point digits exponent,
    IsSign sign ∧ AreDigits whole ∧ (point = [] ∨ point = ['.']) ∧
      AreDigits digits ∧ digits ≠ [] ∧ IsExponent exponent ∧
      cs = sign ++ whole ++ point ++ digits ++ exponent

/-! ## Symbols -/

/-- The spellings of symbols. One symbol has two. -/
def spellings : List (List Char × Symbol) :=
  [(['<', '>'], .notEqual), (['!', '='], .notEqual), (['<', '='], .lessEqual),
    (['>', '='], .greaterEqual), (['<'], .less), (['>'], .greater), (['='], .equals),
    (['+'], .plus), (['-'], .minus), (['*'], .times), (['/'], .divide), (['%'], .modulo),
    ([','], .comma), (['.'], .dot), (['('], .leftParen), ([')'], .rightParen)]

/-! ## Lexemes -/

/-- A sequence of characters is a lexeme of a kind. -/
inductive IsLexeme : List Char → TokenKind → Prop where
  | keyword {cs : List Char} {k : Keyword} :
    IsWord cs → Spells cs k → IsLexeme cs (.keyword k)
  | name {cs : List Char} :
    IsWord cs → (∀ k, ¬Spells cs k) → IsLexeme cs (.identifier (String.ofList cs))
  | number {cs : List Char} : IsNumber cs → IsLexeme cs (.number (String.ofList cs))
  | string {body : List Char} :
    '\'' ∉ body → IsLexeme ('\'' :: body ++ ['\'']) (.string (String.ofList body))
  | quotedName {quote : Char} {body : List Char} :
    quote = '"' ∨ quote = '\x60' → quote ∉ body →
      IsLexeme (quote :: body ++ [quote]) (.identifier (String.ofList body))
  | symbol {cs : List Char} {mark : Symbol} :
    (cs, mark) ∈ spellings → IsLexeme cs (.symbol mark)

/-- The longest lexeme that a text starts with. -/
def IsLongest (text front : List Char) (kind : TokenKind) : Prop :=
  IsLexeme front kind ∧ front <+: text ∧
    ∀ other kind', IsLexeme other kind' → other <+: text → other.length ≤ front.length

end TableSchema.Ddl.LexicalGrammar
