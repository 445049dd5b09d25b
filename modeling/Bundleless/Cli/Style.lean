/-! # Styled text

    Text for a terminal, in a colour, bold or dim.
-/

namespace Bundleless.Cli

/-- How a text stands out. -/
inductive Style where
  | bold
  | dim
  | red
  | green
  | yellow
  | cyan
deriving DecidableEq, Repr, Inhabited

namespace Style

/-- The code that switches the style on. -/
def on : Style → Nat
  | .bold => 1
  | .dim => 2
  | .red => 31
  | .green => 32
  | .yellow => 33
  | .cyan => 36

/-- The code that switches the style off. Colours give way to the usual colour; weight ends with
    everything else. -/
def off : Style → Nat
  | .bold | .dim => 0
  | .red | .green | .yellow | .cyan => 39

/-- The sequence of a code. -/
def sequence (code : Nat) : String := "\x1b[" ++ toString code ++ "m"

/-- The text in the style. -/
def paint (s : Style) (text : String) : String := sequence s.on ++ text ++ sequence s.off

end Style

end Bundleless.Cli
