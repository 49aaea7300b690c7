import DiceNotation.Proofs.Formula.Scan
import DiceNotation.CommandLine.NumberWords
/-!
# How a command is written

`Node.render` writes a tree back as text.  `Node.Canonical reads t x` says how
it writes the expression `t`: `x.text mark` is its text with `mark` after
every throw, `x.tags` the colour tags it leaves to be written after it,
`x.power` how tightly it binds, `x.throws` its throw nodes in the order they
are written, and `x.tokens` what the whole text, tags included, scans to.
`x.settled` says that every evaluation rolls exactly the throws written, in
order: each conditional's branches are free of throws; `x.tails` that it
rolls some first of them, the others standing in a branch not taken.
`Statement`, `Block`, `Branch` and `Statements` do the same for statements: an
expression, `Roll` and a statement, a block in braces, an `if` statement, and
statements joined by commas.

With `reads` the relation keeps to the trees that the reader builds from their
own text: tags hang on numerals, after the last count of a throw's drops or
after its sides, never on a unit in parentheses; drops hang on throws; only a
statement that closes before a comma is followed by one, and only a statement
that starts with a number, a brace or `Roll` follows one.  Without `reads` a
repetition by a literal count may stand anywhere, written as its copies.
-/

namespace DiceNotation

namespace Node

/-- How a tree is written. -/
structure Written where
  text : List Char → List Char
  tokens : List (Symbol × String)
  tags : List String
  power : Nat
  throws : List Node
  settled : Bool
  tails : Bool

namespace Written

def tagText (tags : List String) : List Char :=
  (tags.map fun τ => ' ' :: τ.toList).flatten

def tagTokens (tags : List String) : List (Symbol × String) :=
  tags.map fun τ => (.ident, τ)

/-- The text with the tags after it. -/
def full (x : Written) (mark : List Char) : List Char :=
  x.text mark ++ tagText x.tags

/-- Settled and free of throws: the written form of a branch that may be left out. -/
def idle (x : Written) : Bool :=
  x.settled && x.throws.isEmpty

/-- The most a token after the text may bind for the reader to stop there:
nothing after a conditional or a repetition, whose last operand takes what follows. -/
def closing (x : Written) : Nat :=
  if x.power ≤ Symbol.ifWord.bindingPower then 0 else x.power

@[simp] theorem tagText_nil : tagText [] = [] := rfl

@[simp] theorem tagTokens_nil : tagTokens [] = [] := rfl

theorem tagText_cons (τ : String) (tags : List String) :
    tagText (τ :: tags) = ' ' :: (τ.toList ++ tagText tags) := rfl

theorem tagText_append (g g' : List String) : tagText (g ++ g') = tagText g ++ tagText g' := by
  simp [tagText]

theorem tagTokens_append (g g' : List String) :
    tagTokens (g ++ g') = tagTokens g ++ tagTokens g' := by
  simp [tagTokens]

end Written

/-- A word that the scanner reads back as a name: a word of ASCII letters,
digits and `_`, no keyword, and no throw letter before a digit. -/
structure TagWord (τ : String) : Prop where
  word : ∃ c w, τ.toList = c :: w ∧ Token.isWordStart c = true ∧ ∀ x ∈ w, Token.isWordChar x = true
  noKeyword : Token.keyword? (Text.lower τ) = none
  noNumber : Token.Numerals.isWord (Text.lower τ) = false
  noThrow : ∀ c w, τ.toList = c :: w → c = 'd' ∨ c = 'D' → ∀ x ∈ w.head?, Text.isDecimal x = false

/-- A colour tag hung on a node, written as the reader capitalises it. -/
structure TagLeaf (n : Node) : Prop where
  sym : n.sym = Symbol.ident.text
  leaf : n.children = []
  capitalized : Text.capitalize n.value = n.value
  word : TagWord n.value

/-- The drops of a throw: each a count that is a numeral, tags only after the last. -/
inductive Drops (reads : Bool) : List Node → List Char → List (Symbol × String) → List String → Prop
  | nil : Drops reads [] [] [] []
  | cons {o : Symbol} {v : String} {cs ds : List Node} {w : List Char}
      {ts : List (Symbol × String)} {g : List String} {l k l' k' : Nat}
      (ho : o = .dropHighest ∨ o = .dropLowest) (hv : IsNumeral v.toList)
      (hcs : ∀ c ∈ cs, TagLeaf c) (hlast : reads = true → ds ≠ [] → cs = [])
      (hd : Drops reads ds w ts g) :
      Drops reads (mk o.text o.text l k [mk Symbol.number.text v l' k' cs] :: ds)
        (o.text.toList ++ v.toList ++ w)
        ((o, o.text) :: (.number, v) :: Written.tagTokens (cs.map value) ++ ts) (cs.map value ++ g)

/-- How an expression is written.  An operand binding more loosely than its
operator, or as loosely on the right, is put in parentheses. -/
inductive Canonical (reads : Bool) : Node → Written → Prop
  | numeral {v : String} {cs : List Node} {l k : Nat} (hv : IsNumeral v.toList)
      (hcs : ∀ c ∈ cs, TagLeaf c) :
      Canonical reads (mk Symbol.number.text v l k cs)
        ⟨fun _ => v.toList, (.number, v) :: Written.tagTokens (cs.map value), cs.map value,
          Symbol.tagPower, [], true, true⟩
  | negate {a : Node} {x : Written} {l k : Nat} (ha : Canonical reads a x)
      (hx : reads = true → x.power < Symbol.prefixPower → x.tags = []) :
      Canonical reads (mk Symbol.minus.text Symbol.minus.text l k [a])
        ⟨fun m => '-' :: enclose (x.power < Symbol.prefixPower) (x.text m),
          (.minus, Symbol.minus.text) :: encloseTokens (x.power < Symbol.prefixPower) x.tokens,
          x.tags, Symbol.prefixPower, x.throws, x.settled, x.tails⟩
  | binary {s : Symbol} {a b : Node} {x y : Written} {l k : Nat} (hs : s ∈ Symbol.spacedOperators)
      (ha : Canonical reads a x) (hb : Canonical reads b y)
      (hx : reads = true → x.power < s.bindingPower → x.tags = [])
      (hy : reads = true → y.power ≤ s.bindingPower → y.tags = []) :
      Canonical reads (mk s.text s.text l k [a, b])
        ⟨fun m => enclose (x.power < s.bindingPower) (x.text m) ++ Written.tagText x.tags ++
            ' ' :: (s.text.toList ++ ' ' ::
              (enclose (y.power ≤ s.bindingPower) (y.text m) ++ Written.tagText y.tags)),
          encloseTokens (x.power < s.bindingPower) x.tokens ++
            (s, s.text) :: encloseTokens (y.power ≤ s.bindingPower) y.tokens,
          [], s.bindingPower, x.throws ++ y.throws, x.settled && y.settled, x.settled && y.tails⟩
  | throw {a b : Node} {ds : List Node} {x y : Written} {w : List Char}
      {ts : List (Symbol × String)} {g : List String} {l k : Nat}
      (ha : Canonical reads a x) (hb : Canonical reads b y) (hd : Drops reads ds w ts g)
      (hx : reads = true → x.tags = [] ∧
        (x.power < Symbol.dice.bindingPower ∨ ∀ p ∈ x.tokens.getLast?, p.1 ≠ .ident))
      (hy : reads = true → y.power ≤ Symbol.dice.bindingPower ∨ ds ≠ [] → y.tags = []) :
      Canonical reads (mk Symbol.dice.text Symbol.dice.text l k (a :: b :: ds))
        ⟨fun m => enclose (x.power < Symbol.dice.bindingPower) (x.text m) ++
            'd' :: (enclose (y.power ≤ Symbol.dice.bindingPower) (y.text m) ++ w ++ m),
          encloseTokens (x.power < Symbol.dice.bindingPower) x.tokens ++ (.dice, Symbol.dice.text) ::
            (encloseTokens (y.power ≤ Symbol.dice.bindingPower) y.tokens ++ ts),
          x.tags ++ y.tags ++ g, Symbol.dice.bindingPower,
          x.throws ++ y.throws ++ [mk Symbol.dice.text Symbol.dice.text l k (a :: b :: ds)],
          x.settled && y.settled, x.settled && y.settled⟩
  | conditional {c a b : Node} {z x y : Written} {l k : Nat} (hc : Canonical reads c z)
      (ha : Canonical reads a x) (hb : Canonical reads b y)
      (hx : reads = true → x.power ≤ Symbol.ifWord.bindingPower → x.tags = []) :
      Canonical reads (mk Symbol.ifWord.text Symbol.ifWord.text l k [c, a, b])
        ⟨fun m => enclose (x.power ≤ Symbol.ifWord.bindingPower) (x.text m) ++
            Written.tagText x.tags ++ (" if ".toList ++ (z.full m ++ (" else ".toList ++ y.full m))),
          encloseTokens (x.power ≤ Symbol.ifWord.bindingPower) x.tokens ++
            (.ifWord, Symbol.ifWord.text) :: (z.tokens ++ (.elseWord, Symbol.elseWord.text) :: y.tokens),
          [], Symbol.ifWord.bindingPower, x.throws ++ z.throws ++ y.throws,
          z.settled && x.idle && y.idle,
          z.settled && (x.idle && y.tails) || z.idle && y.idle && x.tails⟩
  | «repeat» {a : Node} {x : Written} {v : String} {count : Int} {l k l' k' : Nat}
      (hr : reads = false) (ha : Canonical reads a x) (hv : IsNumeral v.toList)
      (hcount : literalCount v = .ok count) (hpos : 0 < count) (hfit : Value.fitsWord count = true)
      (hmem : ¬(memoryLimit < 8 * count.toNat ∨
        memoryLimit < count.toNat * ((String.ofList (x.full placeholder.toList)).utf8ByteSize + 2))) :
      Canonical reads (mk Symbol.repWord.text Symbol.repWord.text l k [a, mk Symbol.number.text v l' k' []])
        ⟨fun m => ", ".toList.intercalate (List.replicate count.toNat (x.full m)),
          [(.comma, Symbol.comma.text)].intercalate (List.replicate count.toNat x.tokens),
          [], Symbol.repWord.bindingPower, (List.replicate count.toNat x.throws).flatten, x.settled,
          x.settled⟩

mutual

/-- How a statement is written; the flags say whether it may be followed by
a comma and whether it may follow one. -/
inductive Statement (reads : Bool) : Node → Written → Bool → Bool → Prop
  | expr {t : Node} {x : Written} (h : Canonical reads t x) :
      Statement reads t ⟨x.full, x.tokens, [], 0, x.throws, x.settled, x.tails⟩
        (decide (Symbol.comma.bindingPower ≤ x.closing))
        (decide (x.tokens.head?.map Prod.fst = some .number))
  | roll {s : Node} {x : Written} {sep cont : Bool} {l k : Nat} (h : Statement reads s x sep cont) :
      Statement reads (mk Symbol.rollWord.text Symbol.rollWord.text l k [s])
        ⟨fun m => "Roll ".toList ++ x.text m, (.rollWord, Symbol.rollWord.text) :: x.tokens, [], 0,
          x.throws, x.settled, x.tails⟩ sep true
  | block {b : Node} {x : Written} (h : Block reads b x) : Statement reads b x false true
  | branch {t : Node} {x : Written} (h : Branch reads t x) : Statement reads t x false false

inductive Block (reads : Bool) : Node → Written → Prop
  | empty {l k : Nat} :
      Block reads (mk Symbol.openBrace.text Symbol.openBrace.text l k [])
        ⟨fun _ => "\x7b \x7d".toList,
          [(.openBrace, Symbol.openBrace.text), (.closeBrace, Symbol.closeBrace.text)], [], 0, [],
          true, true⟩
  | full {ss : List Node} {x : Written} {cont : Bool} {l k : Nat} (h : Statements reads ss x cont) :
      Block reads (mk Symbol.openBrace.text Symbol.openBrace.text l k ss)
        ⟨fun m => "\x7b ".toList ++ x.text m ++ " \x7d".toList,
          (.openBrace, Symbol.openBrace.text) :: (x.tokens ++ [(.closeBrace, Symbol.closeBrace.text)]),
          [], 0, x.throws, x.settled, x.tails⟩

/-- How an `if` statement is written: a condition, a block, and optionally
`else` with a block or another `if` statement. -/
inductive Branch (reads : Bool) : Node → Written → Prop
  | bare {c body : Node} {z x : Written} {l k : Nat} (hc : Canonical reads c z)
      (hb : Block reads body x) :
      Branch reads (mk Symbol.ifWord.text Symbol.ifWord.text l k [c, body])
        ⟨fun m => "if ".toList ++ (z.full m ++ ' ' :: x.text m),
          (.ifWord, Symbol.ifWord.text) :: (z.tokens ++ x.tokens), [], 0, z.throws ++ x.throws,
          z.settled && x.idle, z.settled && x.tails⟩
  | withElse {c body other : Node} {z x y : Written} {l k : Nat} (hc : Canonical reads c z)
      (hb : Block reads body x) (ho : Block reads other y) :
      Branch reads (mk Symbol.ifWord.text Symbol.ifWord.text l k [c, body, other])
        ⟨fun m => "if ".toList ++ (z.full m ++ ' ' :: (x.text m ++ " else ".toList ++ y.text m)),
          (.ifWord, Symbol.ifWord.text) ::
            (z.tokens ++ (x.tokens ++ (.elseWord, Symbol.elseWord.text) :: y.tokens)),
          [], 0, z.throws ++ x.throws ++ y.throws, z.settled && x.idle && y.idle,
          z.settled && (x.tails && y.idle || x.idle && y.tails)⟩
  | elseIf {c body other : Node} {z x y : Written} {l k : Nat} (hc : Canonical reads c z)
      (hb : Block reads body x) (ho : Branch reads other y) :
      Branch reads (mk Symbol.ifWord.text Symbol.ifWord.text l k [c, body, other])
        ⟨fun m => "if ".toList ++ (z.full m ++ ' ' :: (x.text m ++ " else ".toList ++ y.text m)),
          (.ifWord, Symbol.ifWord.text) ::
            (z.tokens ++ (x.tokens ++ (.elseWord, Symbol.elseWord.text) :: y.tokens)),
          [], 0, z.throws ++ x.throws ++ y.throws, z.settled && x.idle && y.idle,
          z.settled && (x.tails && y.idle || x.idle && y.tails)⟩

/-- Statements joined by commas; the flag says whether the first may follow a comma. -/
inductive Statements (reads : Bool) : List Node → Written → Bool → Prop
  | single {t : Node} {x : Written} {sep cont : Bool} (h : Statement reads t x sep cont) :
      Statements reads [t] x cont
  | cons {t : Node} {ts : List Node} {x y : Written} {sep cont cont' : Bool}
      (h : Statement reads t x sep cont) (hs : Statements reads ts y cont')
      (hsep : reads = true → sep = true) (hcont : reads = true → cont' = true) :
      Statements reads (t :: ts)
        ⟨fun m => x.text m ++ (", ".toList ++ y.text m),
          x.tokens ++ (.comma, Symbol.comma.text) :: y.tokens, [], 0, x.throws ++ y.throws,
          x.settled && y.settled, x.settled && y.tails⟩ cont

end

end Node

end DiceNotation
