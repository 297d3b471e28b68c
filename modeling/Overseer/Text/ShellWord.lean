set_option autoImplicit false

/-! # Command lines as a shell reads them

A word made of unreserved characters stands bare; any other word, the empty one included,
stands between single quotes, a single quote inside it being closed, quoted and reopened. -/

namespace Overseer.Text

/-- Characters that need no quoting. -/
def isShellSafe (c : Char) : Bool := c.isAlphanum || "_@%+=:,./-".toList.contains c

/-- One word of a command line. -/
def shellWord (s : String) : String :=
  let cs := s.toList
  if !cs.isEmpty && cs.all isShellSafe then s
  else
    String.ofList ('\x27' ::
      cs.flatMap (fun c => if c = '\x27' then ['\x27', '"', '\x27', '"', '\x27'] else [c]) ++
      ['\x27'])

/-- A command line. -/
def shellLine (words : List String) : String := " ".intercalate (words.map shellWord)

end Overseer.Text
