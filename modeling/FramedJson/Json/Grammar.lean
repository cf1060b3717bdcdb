import FramedJson.Json.Numeral
import FramedJson.Text.Hexadecimal
import Mathlib.Data.List.Forall2

/-!
What JSON text is, told by its grammar and not by a reader: which bytes are a value, and which characters
a string spells. A value may nest to any depth, its numbers may have any size, and its strings may name
half a surrogate pair; not every such value can be kept as a document.
-/
namespace FramedJson.Grammar

def Blanks (bytes : List UInt8) : Prop := ∀ byte ∈ bytes, byte ∈ ([32, 9, 10, 13] : List UInt8)

theorem blanks_nil : Blanks [] := fun _ none => nomatch none

section Numerals

def Digits (bytes : List UInt8) : Prop := bytes ≠ [] ∧ ∀ byte ∈ bytes, Json.isDigit byte

def Whole (bytes : List UInt8) : Prop := bytes = [48] ∨ Digits bytes ∧ bytes.head? ≠ some 48

def Fraction (bytes : List UInt8) : Prop :=
  bytes = [] ∨ ∃ digits, Digits digits ∧ bytes = 46 :: digits

def Exponent (bytes : List UInt8) : Prop :=
  bytes = [] ∨ ∃ mark sign digits, (mark = 101 ∨ mark = 69) ∧
    (sign = [] ∨ sign = [43] ∨ sign = [45]) ∧ Digits digits ∧ bytes = mark :: (sign ++ digits)

def Unsigned (bytes : List UInt8) : Prop :=
  ∃ whole fraction exponent, Whole whole ∧ Fraction fraction ∧ Exponent exponent ∧
    bytes = whole ++ (fraction ++ exponent)

def Numeral (bytes : List UInt8) : Prop :=
  Unsigned bytes ∨ ∃ digits, Unsigned digits ∧ bytes = 45 :: digits

end Numerals

section Strings

def escapes : List (UInt8 × Char) :=
  [(34, '"'), (92, '\\'), (47, '/'), (98, Char.ofNat 8), (102, Char.ofNat 12), (110, '\n'),
    (114, '\r'), (116, '\t')]

inductive Code : List UInt8 → Nat → Prop
  | digits {a b c d : UInt8} {w x y z : Nat}
      (first : Hexadecimal.value? a.toNat = some w) (second : Hexadecimal.value? b.toNat = some x)
      (third : Hexadecimal.value? c.toNat = some y) (fourth : Hexadecimal.value? d.toNat = some z) :
      Code [a, b, c, d] (((w * 16 + x) * 16 + y) * 16 + z)

/-- The bytes between the quotes of a string, and the characters that it spells. -/
inductive Spelling : List UInt8 → List Char → Prop
  | done : Spelling [] []
  | plain {c : Char} {rest : List UInt8} {chars : List Char} (quote : c ≠ '"')
      (backslash : c ≠ '\\') (printable : 0x20 ≤ c.toNat) (others : Spelling rest chars) :
      Spelling (String.utf8EncodeChar c ++ rest) (c :: chars)
  | escape {letter : UInt8} {c : Char} {rest : List UInt8} {chars : List Char}
      (known : (letter, c) ∈ escapes) (others : Spelling rest chars) :
      Spelling (92 :: letter :: rest) (c :: chars)
  | code {c : Char} {digits rest : List UInt8} {chars : List Char} (value : Code digits c.toNat)
      (others : Spelling rest chars) : Spelling (92 :: 117 :: (digits ++ rest)) (c :: chars)
  | pair {c : Char} {high low rest : List UInt8} {chars : List Char} (wide : 0x10000 ≤ c.toNat)
      (lead : Code high (0xD800 + (c.toNat - 0x10000) / 0x400))
      (trail : Code low (0xDC00 + (c.toNat - 0x10000) % 0x400)) (others : Spelling rest chars) :
      Spelling (92 :: 117 :: (high ++ 92 :: 117 :: (low ++ rest))) (c :: chars)

/-- The bytes between the quotes of any string, whether or not they spell characters. -/
inductive Quotable : List UInt8 → Prop
  | done : Quotable []
  | plain {byte : UInt8} {rest : List UInt8} (quote : byte ≠ 34) (backslash : byte ≠ 92)
      (printable : 32 ≤ byte) (others : Quotable rest) : Quotable (byte :: rest)
  | escape {letter : UInt8} {c : Char} {rest : List UInt8} (known : (letter, c) ∈ escapes)
      (others : Quotable rest) : Quotable (92 :: letter :: rest)
  | code {digits rest : List UInt8} {value : Nat} (four : Code digits value)
      (others : Quotable rest) : Quotable (92 :: 117 :: (digits ++ rest))

end Strings

section Containers

/-- Elements with commas between them and blanks around them, up to and with the closing byte; `first`
where no element has come before. -/
inductive Listed (close : UInt8) : Bool → List (List UInt8) → List UInt8 → Prop
  | done {first : Bool} {blank : List UInt8} (blanks : Blanks blank) :
      Listed close first [] (blank ++ [close])
  | first {blank item rest : List UInt8} {items : List (List UInt8)} (blanks : Blanks blank)
      (others : Listed close false items rest) :
      Listed close true (item :: items) (blank ++ (item ++ rest))
  | next {blank blank' item rest : List UInt8} {items : List (List UInt8)} (blanks : Blanks blank)
      (blanks' : Blanks blank') (others : Listed close false items rest) :
      Listed close false (item :: items) (blank ++ 44 :: (blank' ++ (item ++ rest)))

def MemberText (name value text : List UInt8) : Prop :=
  ∃ before after, Blanks before ∧ Blanks after ∧
    text = 34 :: (name ++ 34 :: (before ++ 58 :: (after ++ value)))

inductive Value : List UInt8 → Prop
  | null : Value [110, 117, 108, 108]
  | isTrue : Value [116, 114, 117, 101]
  | isFalse : Value [102, 97, 108, 115, 101]
  | number {bytes : List UInt8} (numeral : Numeral bytes) : Value bytes
  | string {inside : List UInt8} (quotable : Quotable inside) : Value (34 :: (inside ++ [34]))
  | list {items : List (List UInt8)} {inside : List UInt8} (values : ∀ item ∈ items, Value item)
      (listed : Listed 93 true items inside) : Value (91 :: inside)
  | object {members : List (List UInt8 × List UInt8)} {texts : List (List UInt8)}
      {inside : List UInt8} (names : ∀ member ∈ members, Quotable member.1)
      (values : ∀ member ∈ members, Value member.2)
      (written : List.Forall₂ (fun member text => MemberText member.1 member.2 text) members texts)
      (listed : Listed 125 true texts inside) : Value (123 :: inside)

end Containers

def Alone (test : List UInt8 → Prop) (bytes : List UInt8) : Prop :=
  ∃ before text after, Blanks before ∧ test text ∧ Blanks after ∧ bytes = before ++ (text ++ after)

end FramedJson.Grammar
