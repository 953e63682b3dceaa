/-!
# Styled terminal text

A styled text is a list of pieces, each with a style or without. Without colour
it reads as the pieces' texts one after the other; with colour each styled piece
is wrapped in the terminal's escape sequences: the one that turns its style on
and the one that turns every style off.
-/

namespace CommitReports.Text

/-- How a piece of output is emphasised. -/
inductive Style where
  | dimmed
  | green
  | yellow
  | cyan
  | boldRed
  deriving DecidableEq, Repr

/-- The parameters of the escape sequence that turns a style on. -/
def Style.parameters : Style → String
  | .dimmed => "2"
  | .green => "32"
  | .yellow => "33"
  | .cyan => "36"
  | .boldRed => "1;31"

/-- The text in a style; as it is when `colour` is off. -/
def Style.paint (style : Style) (colour : Bool) (text : String) : String :=
  if colour then "\x1b[" ++ style.parameters ++ "m" ++ text ++ "\x1b[0m" else text

/-- Text whose pieces may each have a style. -/
abbrev Styled := List (Option Style × String)

/-- A styled text as it is sent to a terminal. -/
def Styled.render (colour : Bool) (text : Styled) : String :=
  String.join (text.map fun (style, piece) =>
    match style with
    | some style => style.paint colour piece
    | none => piece)

/-- Without colour only the words are sent. -/
theorem Styled.render_false (text : Styled) :
    text.render false = String.join (text.map (·.2)) := by
  have h : (fun x : Option Style × String => match x.1 with
      | some style => style.paint false x.2
      | none => x.2) = (·.2) := by
    funext ⟨style, piece⟩
    cases style <;> rfl
  exact congrArg (fun f => String.join (text.map f)) h

end CommitReports.Text
