import HtmlTree.Html.Fault
import HtmlTree.Html.Reference.Named

/-! Character references: the longest name that a text starts with, and the characters that numbers
stand for. -/

namespace HtmlTree.Html.Reference

/-- Names still possible, each by what is left of it and the text it stands for. -/
abbrev Candidates := List (List Char × List Char)

def candidates (first : Char) : Candidates :=
  (namesFrom first).map fun entry => (entry.1.toList, entry.2.toList)

def narrow (c : Char) (names : Candidates) : Candidates :=
  names.filterMap fun (name, text) =>
    match name with
    | [] => none
    | d :: name => if d = c then some (name, text) else none

def finished (names : Candidates) : Option (List Char) :=
  (names.find? fun entry => entry.1.isEmpty).map (·.2)

structure Found where
  length : Nat
  text : List Char
  deriving DecidableEq, Repr

/-- How many characters were read as part of some name, and the longest name among them. -/
structure Scan where
  length : Nat
  best : Option Found
  deriving DecidableEq, Repr

def scanFrom (names : Candidates) (scan : Scan) : List Char → Scan
  | [] => scan
  | c :: rest =>
    match narrow c names with
    | [] => scan
    | names =>
      let length := scan.length + 1
      let best := ((finished names).map fun text => ⟨length, text⟩).or scan.best
      scanFrom names ⟨length, best⟩ rest

def scan (text : List Char) : Scan :=
  match text with
  | [] => ⟨0, none⟩
  | c :: _ => scanFrom (candidates c) ⟨0, none⟩ text

/-- Numbers that stand for another character than their own. -/
def replaced : List (Nat × Nat) :=
  [(0x00, 0xFFFD), (0x0D, 0x0D), (0x80, 0x20AC), (0x81, 0x81), (0x82, 0x201A), (0x83, 0x0192),
   (0x84, 0x201E), (0x85, 0x2026), (0x86, 0x2020), (0x87, 0x2021), (0x88, 0x02C6), (0x89, 0x2030),
   (0x8A, 0x0160), (0x8B, 0x2039), (0x8C, 0x0152), (0x8D, 0x8D), (0x8E, 0x017D), (0x8F, 0x8F),
   (0x90, 0x90), (0x91, 0x2018), (0x92, 0x2019), (0x93, 0x201C), (0x94, 0x201D), (0x95, 0x2022),
   (0x96, 0x2013), (0x97, 0x2014), (0x98, 0x02DC), (0x99, 0x2122), (0x9A, 0x0161), (0x9B, 0x203A),
   (0x9C, 0x0153), (0x9D, 0x9D), (0x9E, 0x017E), (0x9F, 0x0178)]

/-- Numbers that stand for themselves and should not be used. -/
def isDubious (n : Nat) : Bool :=
  (0x1 ≤ n && n ≤ 0x8) || n == 0xB || (0xE ≤ n && n ≤ 0x1F) || (0x7F ≤ n && n ≤ 0x9F) ||
    (0xFDD0 ≤ n && n ≤ 0xFDEF) || 0xFFFE ≤ n % 0x10000

def isCharacter (n : Nat) : Bool := n < 0xD800 || (0xDFFF < n && n ≤ 0x10FFFF)

def ofNumber (n : Nat) : Char × Option Fault :=
  match replaced.lookup n with
  | some m => (Char.ofNat m, some (.illegalReference n))
  | none =>
    if !isCharacter n then ('\uFFFD', some (.illegalReference n))
    else (Char.ofNat n, if isDubious n then some (.illegalReference n) else none)

end HtmlTree.Html.Reference
