import Mathlib.Data.List.Basic

/-! The Prometheus text exposition format: metric families, and a parser for their text. Help
texts and other comments are skipped, a timestamp is read and dropped. -/

namespace Exposition

inductive Kind where
  | counter
  | gauge
  | histogram
  | summary
  | untyped
  deriving DecidableEq

structure Sample (V : Type) where
  name : String
  labels : List (String × String)
  value : V
  deriving DecidableEq

/-- The suffixes that samples add to the name of their family. -/
def Kind.suffixes : Kind → List String
  | .counter | .gauge | .untyped => [""]
  | .histogram => ["", "_bucket", "_sum", "_count"]
  | .summary => ["", "_sum", "_count"]

def Kind.owns (kind : Kind) (family sample : String) : Bool :=
  kind.suffixes.any (family ++ · == sample)

structure Family (V : Type) where
  name : String
  kind : Kind
  samples : List (Sample V)
  deriving DecidableEq

inductive Line (V : Type) where
  | type (name : String) (kind : Kind)
  | sample (sample : Sample V)

def isBlank (c : Char) : Bool := c == ' ' || c == '\t'

def skipBlanks (text : List Char) : List Char := text.dropWhile isBlank

def words (text : List Char) : List (List Char) := (text.splitOnP isBlank).filter (· ≠ [])

def isMetricChar (c : Char) : Bool := c.isAlphanum || c == '_' || c == ':'

def isMetricName (name : List Char) : Bool :=
  match name with
  | [] => false
  | first :: _ => !first.isDigit && name.all isMetricChar

def isLabelChar (c : Char) : Bool := c.isAlphanum || c == '_'

def isLabelName (name : List Char) : Bool :=
  match name with
  | [] => false
  | first :: _ => !first.isDigit && name.all isLabelChar

def parseKind (word : List Char) : Option Kind :=
  match String.ofList word with
  | "counter" => some .counter
  | "gauge" => some .gauge
  | "histogram" => some .histogram
  | "summary" => some .summary
  | "untyped" => some .untyped
  | _ => none

def escapeChar (c : Char) : List Char :=
  if c = '\\' then ['\\', '\\'] else if c = '"' then ['\\', '"']
  else if c = '\n' then ['\\', 'n'] else [c]

/-- A label value up to its closing quote, and the text behind it. -/
def unescape : List Char → Option (List Char × List Char)
  | [] => none
  | '"' :: rest => some ([], rest)
  | '\\' :: '\\' :: rest => (unescape rest).map fun (value, later) => ('\\' :: value, later)
  | '\\' :: '"' :: rest => (unescape rest).map fun (value, later) => ('"' :: value, later)
  | '\\' :: 'n' :: rest => (unescape rest).map fun (value, later) => ('\n' :: value, later)
  | '\\' :: _ => none
  | c :: rest => (unescape rest).map fun (value, later) => (c :: value, later)

/-- One label, and the text behind its value. -/
def parseLabel (text : List Char) : Option ((String × String) × List Char) :=
  let name := text.takeWhile isLabelChar
  if isLabelName name then
    match skipBlanks (text.dropWhile isLabelChar) with
    | '=' :: rest =>
      match skipBlanks rest with
      | '"' :: rest =>
        (unescape rest).map fun (value, later) => ((.ofList name, .ofList value), later)
      | _ => none
    | _ => none
  else none

/-- The labels behind an opening brace; every label uses up one unit of fuel. -/
def parseLabels : ℕ → List Char → Option (List (String × String) × List Char)
  | 0, _ => none
  | fuel + 1, text =>
    match skipBlanks text with
    | '}' :: rest => some ([], rest)
    | text =>
      (parseLabel text).bind fun (label, later) =>
        match skipBlanks later with
        | ',' :: rest => (parseLabels fuel rest).map fun (labels, later) => (label :: labels, later)
        | '}' :: rest => some ([label], rest)
        | _ => none

def isLabelSet (labels : List (String × String)) : Bool :=
  decide (labels.map Prod.fst).Nodup && !(labels.map Prod.fst).contains "__name__"

def parseLabelSet (text : List Char) : Option (List (String × String) × List Char) :=
  match skipBlanks text with
  | '{' :: rest => (parseLabels rest.length rest).filter (isLabelSet ·.1)
  | rest => some ([], rest)

def isTimestamp (word : List Char) : Bool :=
  match word with
  | '-' :: digits => !digits.isEmpty && digits.all Char.isDigit
  | digits => !digits.isEmpty && digits.all Char.isDigit

def isNumberChar (c : Char) : Bool := c.isAlphanum || c == '+' || c == '-' || c == '.' || c == '_'

def isNumberText (word : List Char) : Bool := !word.isEmpty && word.all isNumberChar

section Parse

variable {V : Type} (ofText : String → Option V)

def parseNumber (word : List Char) : Option V :=
  if isNumberText word then ofText (.ofList word) else none

def parseValue (text : List Char) : Option V :=
  match words text with
  | [value] => parseNumber ofText value
  | [value, timestamp] => if isTimestamp timestamp then parseNumber ofText value else none
  | _ => none

def parseSample (text : List Char) : Option (Sample V) :=
  let name := text.takeWhile isMetricChar
  if isMetricName name then
    (parseLabelSet (text.dropWhile isMetricChar)).bind fun (labels, rest) =>
      (parseValue ofText rest).map fun value => ⟨.ofList name, labels, value⟩
  else none

def parseType (arguments : List (List Char)) : Option (Option (Line V)) :=
  match arguments with
  | [name, kind] =>
    if isMetricName name then (parseKind kind).map fun kind => some (.type (.ofList name) kind)
    else none
  | _ => none

/-- `none` inside is a line without content. -/
def parseLine (text : List Char) : Option (Option (Line V)) :=
  match skipBlanks text with
  | [] => some none
  | '#' :: comment =>
    match words comment with
    | [] => some none
    | word :: arguments => if word = "TYPE".toList then parseType arguments else some none
  | text => (parseSample ofText text).map fun sample => some (.sample sample)

/-- The lines of a text; the last one has to be ended too. -/
def splitLines (text : List Char) : Option (List (List Char)) :=
  let pieces := text.splitOn '\n'
  if pieces.getLast? = some [] then some pieces.dropLast else none

/-- The samples in front of the first type line, and the families behind it. -/
def group : List (Line V) → Option (List (Sample V) × List (Family V))
  | [] => some ([], [])
  | .sample sample :: lines =>
    (group lines).map fun (samples, families) => (sample :: samples, families)
  | .type name kind :: lines =>
    (group lines).bind fun (samples, families) =>
      if samples.all (kind.owns name ·.name) && !(families.map Family.name).contains name then
        some ([], ⟨name, kind, samples⟩ :: families)
      else none

/-- Every sample has to come behind the type line of its family. -/
def parse (text : List Char) : Option (List (Family V)) :=
  (splitLines text).bind fun lines =>
    (lines.mapM (parseLine ofText)).bind fun parsed =>
      (group (parsed.filterMap id)).bind fun (samples, families) =>
        if samples.isEmpty then some families else none

end Parse

example : parse some "# HELP up text\n# TYPE up gauge\n\nup\x7ba=\"1,\\n\"\x7d 1 -5\nup 0\n".toList =
    some [⟨"up", .gauge, [⟨"up", [("a", "1,\n")], "1"⟩, ⟨"up", [], "0"⟩]⟩] := by decide +kernel

end Exposition
