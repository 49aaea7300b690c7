import DiceNotation.Token
import DiceNotation.Text.Decimal
import DiceNotation.Text.Case
/-!
# Scanning a command into tokens

At each position the scanner skips spaces, tabs, carriage returns, vertical
tabs, form feeds, `\x85` and no-break spaces, and a comment from `#` to the
end of the line.  Then the first rule that fits makes one token:

* a number: decimal digits of any script, then optionally a point and more digits;
* the throw letter: `d` or `D` right before a digit;
* a word: an ASCII letter or `_`, then ASCII letters, digits or `_`.  A word
  that is a keyword in small letters is that keyword; a number word starts a
  run of number words, separated by spaces or tabs, that reads as one number;
  any other word is a name.  Which words are number words and what number a
  run of them makes is a parameter of the scanner, `Numerals`;
* an operator: one of `<= >= == != -L -H`, or one character of
  ``^*()-+=/?.,:;"|{}[]<>!`` (the characters that name no symbol are refused);
* a line break.

Any other character is refused.  Lines count from 1 and grow at each line
break; columns count characters from 1 since the last line break.
-/

namespace DiceNotation.Token

open DiceNotation.Text

/-- Why a run of number words has no value. -/
inductive PhraseFault where
  | malformed
  | missing
  deriving DecidableEq, Repr

/-- Numbers spelled in words: the value of each number word, written in small
letters, and the number that the values of a run of such words make.  A run
has no value when it is malformed or lacks a part; one word alone stands for
its own value. -/
class Numerals where
  wordValue : String → Option Nat
  runValue : List Nat → Except PhraseFault Nat
  runValue_single : ∀ n, runValue [n] = .ok n

namespace Numerals

variable [Numerals]

def isWord (word : String) : Bool :=
  (wordValue word).isSome

def phrase (words : List String) : Except PhraseFault Nat :=
  runValue (words.filterMap wordValue)

end Numerals

/-- Characters skipped between tokens. -/
def isSkipped (c : Char) : Bool :=
  c = ' ' ∨ c = '\t' ∨ c = '\r' ∨ c = '\x0b' ∨ c = '\x0c' ∨ c = '\x85' ∨ c = '\xa0'

/-- ASCII letters. -/
def isLetter (c : Char) : Bool :=
  ('a' ≤ c ∧ c ≤ 'z') ∨ ('A' ≤ c ∧ c ≤ 'Z')

/-- Characters that may start a word. -/
def isWordStart (c : Char) : Bool :=
  isLetter c ∨ c = '_'

/-- Characters that may continue a word. -/
def isWordChar (c : Char) : Bool :=
  isLetter c ∨ ('0' ≤ c ∧ c ≤ '9') ∨ c = '_'

/-- Characters that may form an operator of one character. -/
def isOperatorChar (c : Char) : Bool :=
  "^*()-+=/?.,:;\"|\x7b\x7d[]<>!".toList.contains c

/-- The operator spelled with two characters, if these are one. -/
def pairOperator? (a b : Char) : Option Symbol :=
  match a, b with
  | '<', '=' => some .lessEq
  | '>', '=' => some .greaterEq
  | '=', '=' => some .equal
  | '!', '=' => some .notEqual
  | '-', 'L' => some .dropLowest
  | '-', 'H' => some .dropHighest
  | _, _ => none

/-- The keyword spelled by a word in small letters, if any. -/
def keyword? (word : String) : Option Symbol :=
  if word.toList.all isLetter then Symbol.keywords.find? (·.text == word) else none

/-- The operator of one character, if it names a symbol. -/
def singleOperator? (c : Char) : Option Symbol :=
  Symbol.operators.find? (·.text == c.toString)

/-- What the scanner finds at one position. -/
inductive Lexeme where
  /-- Nothing to keep: a skipped character or a comment. -/
  | skip
  | token (symbol : Symbol) (value : String)
  | newline
  | fault (f : Fault)

section

variable [Numerals]

/-- The words of a run of number words after its first word: each follows
spaces or tabs.  Gives the words and how many characters they take with their
spaces. -/
def wordsAfter (cs : List Char) : List String × Nat :=
  let gap := (cs.takeWhile (fun c => c = ' ' ∨ c = '\t')).length
  match h : cs.drop gap with
  | c :: rest =>
    let word := rest.takeWhile isWordChar
    if 0 < gap ∧ isWordStart c ∧ Numerals.isWord (lower (String.ofList (c :: word))) then
      have : rest.length - word.length < cs.length := by
        have := congrArg List.length h
        simp only [List.length_drop, List.length_cons] at this
        omega
      let (more, used) := wordsAfter (rest.drop word.length)
      (String.ofList (c :: word) :: more, gap + 1 + word.length + used)
    else ([], 0)
  | [] => ([], 0)
termination_by cs.length

/-- A word at the front of the text: a keyword, a run of number words or a
name.  Gives the lexeme and how many characters after the first it takes. -/
def wordLexeme (c : Char) (rest : List Char) (line col : Nat) : Lexeme × Nat :=
  let word := String.ofList (c :: rest.takeWhile isWordChar)
  let used := (rest.takeWhile isWordChar).length
  let small := lower word
  match keyword? small with
  | some k => (.token k small, used)
  | none =>
    if Numerals.isWord small then
      let (more, extra) := wordsAfter (rest.drop used)
      let words := word :: more
      let phrase := " ".intercalate words
      match Numerals.phrase (words.map lower) with
      | .ok n => (.token .number (toString n), used + extra)
      | .error .malformed => (.fault (.lex (.invalidNumber phrase) line col), used + extra)
      | .error .missing => (.fault .missingItem, used + extra)
    else (.token .ident word, used)

/-- A number at the front of the text.  Gives its text without the first digit. -/
def numberTail (rest : List Char) : List Char :=
  let digits := rest.takeWhile isDecimal
  match rest.drop digits.length with
  | '.' :: more => digits ++ '.' :: more.takeWhile isDecimal
  | _ => digits

/-- The lexeme at the front of the text `c :: rest`, at the given position,
and how many characters after `c` it takes. -/
def lexeme (c : Char) (rest : List Char) (line col : Nat) : Lexeme × Nat :=
  if isSkipped c then (.skip, 0)
  else if c = '#' then (.skip, (rest.takeWhile (· ≠ '\n')).length)
  else if isDecimal c then
    let tail := numberTail rest
    (.token .number (String.ofList (c :: tail)), tail.length)
  else if (c = 'd' ∨ c = 'D') ∧ (rest.head?.map isDecimal).getD false then (.token .dice "d", 0)
  else if isWordStart c then wordLexeme c rest line col
  else
    match rest.head?.bind (pairOperator? c) with
    | some op => (.token op op.text, 1)
    | none =>
      if isOperatorChar c then
        match singleOperator? c with
        | some op => (.token op op.text, 0)
        | none => (.fault (.lex (.undefinedOperator c.toString) line col), 0)
      else if c = '\n' then (.newline, 0)
      else (.fault (.lex (.invalidCharacter c) line col), 0)

/-- Scans the text from a position, after the tokens already found (newest first). -/
def scanFrom (cs : List Char) (line col : Nat) (found : List Token) : Lexed :=
  match cs with
  | [] => ⟨found.reverse, .ok ⟨.eof, "EOF", line, col⟩⟩
  | c :: rest =>
    let (lx, used) := lexeme c rest line col
    match lx with
    | .skip => scanFrom (rest.drop used) line (col + 1 + used) found
    | .token symbol value =>
      scanFrom (rest.drop used) line (col + 1 + used) (⟨symbol, value, line, col⟩ :: found)
    | .newline => scanFrom (rest.drop used) (line + 1) 1 (⟨.newline, "\n", line, col⟩ :: found)
    | .fault f => ⟨found.reverse, .error f⟩
termination_by cs.length
decreasing_by all_goals (simp only [List.length_drop, List.length_cons]; omega)

end

end DiceNotation.Token

namespace DiceNotation

/-- The tokens of a command. -/
def Token.scan [Token.Numerals] (source : String) : Lexed :=
  Token.scanFrom source.toList 1 1 []

end DiceNotation
