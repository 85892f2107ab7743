import Handshake.Diagnostic.Basic
set_option autoImplicit false

/-! The two ways of writing a diagnostic: as plain text, and with terminal colours. -/

namespace Handshake

inductive ColorChoice where
  | auto
  | always
  | never
  deriving DecidableEq

namespace ColorChoice

def name : ColorChoice → String
  | auto => "auto"
  | always => "always"
  | never => "never"

def all : List ColorChoice := [auto, always, never]

end ColorChoice

inductive Style where
  | plain
  | colored
  deriving DecidableEq

namespace Style

/-- Colours are written unless they are refused; nothing is asked of the terminal. -/
def ofChoice : ColorChoice → Style
  | .never => plain
  | .auto | .always => colored

/-- A terminal control sequence that selects a rendition. -/
def select (code : String) : String := "\x1b[" ++ code ++ "m"

def tinted (code text : String) : String :=
  select "0" ++ select code ++ text ++ select "0"

def frame (style : Style) (text : String) : String :=
  match style with
  | plain => text
  | colored => tinted "34" text

def mark (style : Style) (level : Level) (text : String) : String :=
  match style with
  | plain => text
  | colored =>
      tinted (match level with
        | .fatal | .error => "31"
        | .warning => "33") text

def header (style : Style) (level : Level) (message : String) : String :=
  match style with
  | plain => level.severity ++ ": " ++ message
  | colored =>
      select "0" ++ select "1" ++
        select (match level with
          | .fatal | .error => "38;5;9"
          | .warning => "38;5;11") ++
        level.severity ++ select "0" ++ select "1" ++ ": " ++ message ++ select "0"

end Style

end Handshake
