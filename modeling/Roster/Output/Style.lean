import Roster.Text.Basic

/-!
# Styled text

A `Style` is a way of showing text on a terminal. With colours on, styled text stands between the
codes that start and end its style; with colours off it stands alone (`Style.apply_off`). Where the
text itself ends all styles, its own style is started again.
-/

namespace Roster

/-- A way of showing text. -/
inductive Style
  | plain
  | bold
  | dimmed
  | blue
  | green
  | red
  | magenta
  | cyan
  | boldBlue
  | boldCyan
  | boldGreen
  | boldRed
  deriving Repr, DecidableEq

namespace Style

/-- The numbers that select a style. -/
def codes : Style → String
  | .plain => ""
  | .bold => "1"
  | .dimmed => "2"
  | .blue => "34"
  | .green => "32"
  | .red => "31"
  | .magenta => "35"
  | .cyan => "36"
  | .boldBlue => "1;34"
  | .boldCyan => "1;36"
  | .boldGreen => "1;32"
  | .boldRed => "1;31"

/-- The control sequence of some numbers. -/
def sequence (codes : String) : List Char :=
  '\x1B' :: '[' :: codes.toList ++ ['m']

/-- The control sequence that ends all styles. -/
def reset : List Char :=
  sequence "0"

/-- A text in a style, if colours are on. -/
def apply (color : Bool) (style : Style) (text : List Char) : List Char :=
  if !color || style == .plain then text
  else
    let start := sequence style.codes
    start ++ Text.replaceAll reset (reset ++ start) text ++ reset

theorem apply_off (style : Style) (text : List Char) : style.apply false text = text := by
  simp [apply]

end Style

end Roster
