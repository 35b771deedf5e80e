import Courier.Text.Ascii
import Courier.Text.Lowercase
import Courier.Text.Printable
import Courier.Url.Punycode
/-!
Host names beyond ASCII.  Characters are brought to one form, small letters among them; each label
that then still holds characters beyond ASCII is written in Punycode behind the mark `xn--`.  Labels
that come with the mark must be the written form of such a label.
-/
namespace Courier.Url.Idna

/-- Characters that are left out: soft hyphen, joiners that show nothing, variation selectors. -/
def isIgnored (n : Nat) : Bool :=
  n == 0xAD || n == 0x34F || (0x180B ≤ n && n ≤ 0x180F) || n == 0x200B || n == 0x2060 ||
    n == 0x2064 || (0xFE00 ≤ n && n ≤ 0xFE0F) || n == 0xFEFF || (0xE0100 ≤ n && n ≤ 0xE01EF)

/-- Characters that stand for others, apart from capitals and wide forms. -/
def equivalents : List (Nat × String) :=
  [(0xA0, " "), (0xA8, " \u0308"), (0xAA, "a"), (0xAF, " \u0304"), (0xB2, "2"), (0xB3, "3"),
   (0xB4, " \u0301"), (0xB5, "\u03BC"), (0xB8, " \u0327"), (0xB9, "1"), (0xBA, "o"),
   (0xBC, "1\u20444"), (0xBD, "1\u20442"), (0xBE, "3\u20444"), (0x130, "i\u0307"), (0x132, "ij"),
   (0x133, "ij"), (0x13F, "l\u00B7"), (0x140, "l\u00B7"), (0x149, "\u02BCn"), (0x17F, "s"),
   (0x1C4, "d\u017E"), (0x1C5, "d\u017E"), (0x1C6, "d\u017E"), (0x1C7, "lj"), (0x1C8, "lj"),
   (0x1C9, "lj"), (0x1CA, "nj"), (0x1CB, "nj"), (0x1CC, "nj"), (0x1F1, "dz"), (0x1F2, "dz"),
   (0x1F3, "dz"), (0x1E9E, "\u00DF"), (0x2000, " "), (0x2001, " "), (0x2002, " "), (0x2003, " "),
   (0x2004, " "), (0x2005, " "), (0x2006, " "), (0x2007, " "), (0x2008, " "), (0x2009, " "),
   (0x200A, " "), (0x2011, "\u2010"), (0x2024, "."), (0x2025, ".."), (0x2026, "..."),
   (0x202F, " "), (0x205F, " "), (0x2070, "0"), (0x2071, "i"), (0x2074, "4"), (0x2075, "5"),
   (0x2076, "6"), (0x2077, "7"), (0x2078, "8"), (0x2079, "9"), (0x207F, "n"), (0x2080, "0"),
   (0x2081, "1"), (0x2082, "2"), (0x2083, "3"), (0x2084, "4"), (0x2085, "5"), (0x2086, "6"),
   (0x2087, "7"), (0x2088, "8"), (0x2089, "9"), (0x20A8, "rs"), (0x2100, "a/c"), (0x2103, "\u00B0c"),
   (0x2105, "c/o"), (0x2109, "\u00B0f"), (0x210E, "h"), (0x2113, "l"), (0x2116, "no"),
   (0x2120, "sm"), (0x2121, "tel"), (0x2122, "tm"), (0x2126, "\u03C9"), (0x3000, " "),
   (0x3002, "."), (0xFB00, "ff"), (0xFB01, "fi"), (0xFB02, "fl"), (0xFB03, "ffi"), (0xFB04, "ffl"),
   (0xFB05, "st"), (0xFB06, "st"), (0xFF61, "."), (0xFFE5, "\u00A5")]

/-- The one form of a character. -/
def mapChar (c : Char) : List Char :=
  let n := c.toNat
  if n < 0x80 then [c.toLower]
  else if isIgnored n then []
  else
    match equivalents.lookup n with
    | some s => s.toList
    | none =>
        if 0xFF01 ≤ n && n ≤ 0xFF5E then [(Char.ofNat (n - 0xFEE0)).toLower]
        else [Text.lowerChar c]

/-- Letters with a mark that joins them: the letter, the mark, and the one character for both.
Only the marks of Latin letters are listed. -/
def compositions : List (Nat × String × String) :=
  [(0x300, "aeiounwy", "\u00E0\u00E8\u00EC\u00F2\u00F9\u01F9\u1E81\u1EF3"),
   (0x301, "aeiouyclnrszgkmpw",
      "\u00E1\u00E9\u00ED\u00F3\u00FA\u00FD\u0107\u013A\u0144\u0155\u015B\u017A\u01F5\u1E31\u1E3F\u1E55\u1E83"),
   (0x302, "aeioucghjswyz",
      "\u00E2\u00EA\u00EE\u00F4\u00FB\u0109\u011D\u0125\u0135\u015D\u0175\u0177\u1E91"),
   (0x303, "anoiuevy", "\u00E3\u00F1\u00F5\u0129\u0169\u1EBD\u1E7D\u1EF9"),
   (0x304, "aeioug", "\u0101\u0113\u012B\u014D\u016B\u1E21"),
   (0x306, "aegiou", "\u0103\u0115\u011F\u012D\u014F\u016D"),
   (0x307, "cegzabdfhmnoprstwxy",
      "\u010B\u0117\u0121\u017C\u0227\u1E03\u1E0B\u1E1F\u1E23\u1E41\u1E45\u022F\u1E57\u1E59\u1E61\u1E6B\u1E87\u1E8B\u1E8F"),
   (0x308, "aeiouyhwxt", "\u00E4\u00EB\u00EF\u00F6\u00FC\u00FF\u1E27\u1E85\u1E8D\u1E97"),
   (0x30A, "auwy", "\u00E5\u016F\u1E98\u1E99"),
   (0x30B, "ou", "\u0151\u0171"),
   (0x30C, "cdenrstzaiougkj",
      "\u010D\u010F\u011B\u0148\u0159\u0161\u0165\u017E\u01CE\u01D0\u01D2\u01D4\u01E7\u01E9\u01F0"),
   (0x327, "cgklnrstedh",
      "\u00E7\u0123\u0137\u013C\u0146\u0157\u015F\u0163\u0229\u1E11\u1E29"),
   (0x328, "aeiuo", "\u0105\u0119\u012F\u0173\u01EB")]

def compose? (letter mark : Char) : Option Char :=
  match compositions.lookup mark.toNat with
  | none => none
  | some (letters, wholes) =>
      ((letters.toList.zip wholes.toList).lookup letter)

/-- Join letters with the marks that follow them. -/
def composeAll : List Char → List Char
  | [] => []
  | c :: rest =>
      match composeAll rest with
      | [] => [c]
      | d :: tail =>
          match compose? c d with
          | some whole => whole :: tail
          | none => c :: d :: tail

/-- Marks that may not begin a label. -/
def isMark (c : Char) : Bool :=
  let n := c.toNat
  (0x300 ≤ n && n ≤ 0x36F) || (0x483 ≤ n && n ≤ 0x489) || (0x591 ≤ n && n ≤ 0x5BD) ||
    (0x610 ≤ n && n ≤ 0x61A) || (0x64B ≤ n && n ≤ 0x65F) || (0x900 ≤ n && n ≤ 0x903) ||
    (0x93A ≤ n && n ≤ 0x94F && n != 0x93D) || (0x1AB0 ≤ n && n ≤ 0x1AFF) ||
    (0x1DC0 ≤ n && n ≤ 0x1DFF) || (0x20D0 ≤ n && n ≤ 0x20F0) || n == 0x3099 || n == 0x309A ||
    (0xFE20 ≤ n && n ≤ 0xFE2F)

/-- ASCII characters that no host name has. -/
def isForbidden (c : Char) : Bool :=
  c.toNat ≤ 0x20 || c.toNat == 0x7F || "%#/:<>?@[\\]^|".toList.contains c

def isAllowed (c : Char) : Bool :=
  if c.toNat < 0x80 then !isForbidden c
  else
    (Text.isPrintable c || isMark c) && c.toNat != 0xFFFD &&
      mapChar c == [c]

/-- A label in its one form that may be used. -/
def isValidLabel (label : List Char) : Bool :=
  label.all isAllowed &&
    match label with
    | [] => true
    | c :: _ => !isMark c

def mark : List Char := "xn--".toList

/-- A label as ASCII text. -/
def encodeLabel? (label : List Char) : Option (List Char) :=
  if mark.isPrefixOf label then
    let tail := label.drop 4
    match Punycode.decode? tail with
    | none => none
    | some decoded =>
        if decoded.isEmpty || decoded.all (fun c => c.toNat < 0x80) ||
            !isValidLabel decoded || composeAll decoded != decoded ||
            Punycode.encode decoded != tail then none
        else some label
  else if !isValidLabel label then none
  else if label.all fun c => c.toNat < 0x80 then some label
  else some (mark ++ Punycode.encode label)

def joinDots : List (List Char) → List Char
  | [] => []
  | [label] => label
  | label :: rest => label ++ '.' :: joinDots rest

/-- A host name as ASCII text. -/
def toAscii? (name : String) : Option String :=
  let mapped := composeAll (name.toList.flatMap mapChar)
  ((Text.splitList (· == '.') mapped).mapM encodeLabel?).map fun labels =>
    String.ofList (joinDots labels)

end Courier.Url.Idna
