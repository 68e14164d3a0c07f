import Bmdwire.Library.TextLines
import Bmdwire.Model.Sockets

/-!
# The prelude of an Ultimatte

`ultimattewire/_preamble.py`: the sections of the text that a unit sends on its control port. A
regular expression of the source is a scanner here, one function for each part of it.
-/

set_option autoImplicit false

namespace Bmdwire.Ultimatte

open Library (isSpace strip stripped)

/-- `[A-Z]` -/
def isCapital (c : Char) : Bool := 'A' ≤ c ∧ c ≤ 'Z'

/-- `[A-Z0-9 ]` -/
def isHeadingChar (c : Char) : Bool := isCapital c ∨ c.isDigit ∨ c = ' '

/-- `{header}:[ \t]*\n`, and what follows. -/
def afterHeader (header text : Line) : Option Line :=
  ((header ++ [':']).isPrefixOf? text).bind fun rest =>
    match rest.dropWhile fun c => c = ' ' ∨ c = '\t' with
    | '\n' :: body => some body
    | _ => none

/-- The search for `^{header}:[ \t]*\n`. A match begins where a line begins. -/
def searchHeader (header : Line) : Bool → Line → Option Line
  | lineStart, [] => if lineStart then afterHeader header [] else none
  | lineStart, c :: text =>
    match if lineStart then afterHeader header (c :: text) else none with
    | some body => some body
    | none => searchHeader header (c = '\n') text

/-- `[A-Z][A-Z0-9 ]*:\s*\n` -/
def capsHeader : Line → Bool
  | [] => false
  | c :: text =>
    isCapital c &&
      match text.dropWhile isHeadingChar with
      | ':' :: rest => '\n' ∈ rest.takeWhile isSpace
      | _ => false

def endPrelude : Line := "END PRELUDE:".toList

/-- `(?=\n[A-Z][A-Z0-9 ]*:\s*\n|\nEND PRELUDE:|\Z)` -/
def endsSection : Line → Bool
  | [] => true
  | c :: text => c = '\n' && (capsHeader text || endPrelude.isPrefixOf text)

/-- `(.*?)` up to the first end of the section. -/
def sectionBody : Line → Line
  | [] => []
  | c :: text => if endsSection (c :: text) then [] else c :: sectionBody text

/-- `parse_section` -/
def parseSection (text header : Line) : Line :=
  match searchHeader header true text with
  | some body => strip (sectionBody body)
  | none => []

def fileList : Line := "FILE LIST".toList

/-- `parse_file_list` -/
def parseFileList (text : Line) : List Line :=
  let body := parseSection text fileList
  if body = [] then [] else stripped body

end Bmdwire.Ultimatte
