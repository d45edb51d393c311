/-!
# Capital letters

Capitals by Unicode's full case mapping, as far as a word of ASCII letters can tell. A character
outside ASCII can show in such a word only if its capital form has an ASCII letter; the table lists
all of them. Every other character beyond ASCII stays as it is: its capital form has no ASCII
letter either.
-/

namespace DdlCatalog.Text

/-- The capital forms with an ASCII letter of the characters outside ASCII. -/
def foreignCapitals : List (Char × List Char) :=
  [('\u00DF', ['S', 'S']), ('\u0131', ['I']), ('\u0149', ['\u02BC', 'N']), ('\u017F', ['S']),
    ('\u01F0', ['J', '\u030C']), ('\u1E96', ['H', '\u0331']), ('\u1E97', ['T', '\u0308']),
    ('\u1E98', ['W', '\u030A']), ('\u1E99', ['Y', '\u030A']), ('\u1E9A', ['A', '\u02BE']),
    ('\uFB00', ['F', 'F']), ('\uFB01', ['F', 'I']), ('\uFB02', ['F', 'L']),
    ('\uFB03', ['F', 'F', 'I']), ('\uFB04', ['F', 'F', 'L']), ('\uFB05', ['S', 'T']),
    ('\uFB06', ['S', 'T'])]

/-- The capital form of a character. -/
def capital (c : Char) : List Char :=
  if c.toNat < 0x80 then [c.toUpper] else (foreignCapitals.lookup c).getD [c]

def capitals (text : List Char) : List Char :=
  text.flatMap capital

end DdlCatalog.Text
