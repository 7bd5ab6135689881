/-
# Stencil.Text.Blank -- blank characters and trimming

A character is blank when it has the property `White_Space`: the tabulators and line ends of
ASCII, the space, the next-line control, and the spaces and separators beyond ASCII.  Trimming
takes the blank characters off an end of a text and leaves all else in place
(`trimStart_append`, `trimEnd_append`).
-/
import Stencil.Text.Basic

set_option autoImplicit false

namespace Stencil.Text

/-- Whether the character has the property `White_Space`. -/
def isBlank (c : Char) : Bool :=
  let n := c.toNat
  (9 ≤ n && n ≤ 13) || n == 0x20 || n == 0x85 || n == 0xA0 || n == 0x1680 ||
    (0x2000 ≤ n && n ≤ 0x200A) || n == 0x2028 || n == 0x2029 || n == 0x202F || n == 0x205F ||
    n == 0x3000

/-- The text without the blank characters at its front. -/
def trimStart (s : Text) : Text := s.dropWhile isBlank

/-- The text without the blank characters at its end. -/
def trimEnd (s : Text) : Text := (splitLastRun isBlank s).1

def trim (s : Text) : Text := trimEnd (trimStart s)

/-- Only blank characters are lost at the end. -/
theorem trimEnd_append (s : Text) : trimEnd s ++ (splitLastRun isBlank s).2 = s :=
  splitLastRun_append isBlank s

/-- What is lost at the end is blank, and what is left does not end in a blank. -/
theorem exists_trimEnd_append (s : Text) : ∃ blanks : Text, s = trimEnd s ++ blanks ∧
    (∀ c ∈ blanks, isBlank c = true) ∧ ∀ c ∈ (trimEnd s).getLast?, isBlank c = false :=
  ⟨_, (trimEnd_append s).symm, (splitLastRun_spec isBlank s).1, (splitLastRun_spec isBlank s).2⟩

/-- The pieces of a text between the characters that satisfy `p`: one more than there are such
characters. -/
def pieces (p : Char → Bool) : Text → List Text
  | [] => [[]]
  | c :: cs =>
      match pieces p cs with
      | [] => [[c]]
      | w :: ws => if p c then [] :: w :: ws else (c :: w) :: ws

/-- The words of a text between the characters that satisfy `p`: its pieces that are not empty. -/
def words (p : Char → Bool) (s : Text) : List Text := (pieces p s).filter (!·.isEmpty)

/-- Whether the character is one of the five blanks that end a word in ASCII text: space,
tabulator, line feed, form feed and carriage return. -/
def isAsciiBlank (c : Char) : Bool :=
  c == ' ' || c == '\t' || c == '\n' || c == '\x0c' || c == '\r'

end Stencil.Text
