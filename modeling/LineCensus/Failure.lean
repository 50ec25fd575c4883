/-
Why a run fails. A failure belongs to one of four layers; it may carry the
failure beneath it, and any failure may be put into a wider context.
-/
import LineCensus.Path

namespace LineCensus

/-- A failure, by cause. -/
inductive Failure where
  | context (text : String) (inner : Failure)
  | invalidPattern (pattern details : String) (beneath : Option String)
  | invalidSortSpec (spec : String)
  | unknownLanguage (id : String)
  | invalidLanguageDefinition (id reason : String)
  | fileRead (path : Path) (error : String)
  | serialization (format details : String)
  | threadPoolCreation (details : String)
  | output (message : String) (beneath : Option String)
  | fileCollection (reason : String) (beneath : Option Failure)
  | measurement (reason : String) (beneath : Option Failure)
  | invalidValue (flag value reason : String)
deriving Inhabited

/-- The part of the program a failure belongs to. -/
inductive Layer where
  | domain
  | infrastructure
  | application
  | presentation
deriving DecidableEq

def Layer.name : Layer → String
  | .domain => "Domain"
  | .infrastructure => "Infrastructure"
  | .application => "Application"
  | .presentation => "Presentation"

namespace Failure

/-- The layer; a context has none of its own. -/
def layer? : Failure → Option Layer
  | .context .. => none
  | .invalidPattern .. | .invalidSortSpec .. | .unknownLanguage .. | .invalidLanguageDefinition .. =>
    some .domain
  | .fileRead .. | .serialization .. | .threadPoolCreation .. | .output .. => some .infrastructure
  | .fileCollection .. | .measurement .. => some .application
  | .invalidValue .. => some .presentation

/-- The failure in words, without its layer. -/
def message : Failure → String
  | .context text inner => text ++ ": " ++ (match inner.layer? with
      | some layer => layer.name ++ " error: " ++ inner.message
      | none => inner.message)
  | .invalidPattern pattern details _ => s!"Invalid pattern '{pattern}': {details}"
  | .invalidSortSpec spec => s!"Invalid sort specification: {spec}"
  | .unknownLanguage id => s!"Unknown language: {id}"
  | .invalidLanguageDefinition id reason => s!"Invalid language definition '{id}': {reason}"
  | .fileRead path error => s!"Failed to read file '{path.display}': {error}"
  | .serialization format details => s!"Failed to parse {format} output: {details}"
  | .threadPoolCreation details => s!"Thread pool creation failed: {details}"
  | .output message _ => s!"Output error: {message}"
  | .fileCollection reason _ => s!"Failed to collect source files: {reason}"
  | .measurement reason _ => s!"Failed to analyze source files: {reason}"
  | .invalidValue flag value reason => s!"Invalid CLI value: {flag} = {value} - {reason}"

/-- The failure in words, with its layer in front. -/
def display (f : Failure) : String :=
  match f.layer? with
  | some layer => layer.name ++ " error: " ++ f.message
  | none => f.message

/-- What stands beneath a failure, the nearest first, each in words. A failure
of a layer has itself without the layer as its nearest cause. -/
def causes : Failure → List String
  | .context _ inner => inner.display :: inner.causes
  | f@(.invalidPattern _ _ beneath) | f@(.output _ beneath) => f.message :: beneath.toList
  | f@(.fileRead _ error) => [f.message, error]
  | f@(.fileCollection _ (some inner)) | f@(.measurement _ (some inner)) =>
    f.message :: inner.display :: inner.causes
  | f => [f.message]

/-- A failure with its causes, on one line. -/
def chain (f : Failure) : String := ": ".intercalate (f.display :: f.causes)

/-- What succeeds in two steps succeeds in each of them. -/
theorem exists_of_bind_eq_ok {x : Except Failure α} {f : α → Except Failure β} {b : β} (h : (x >>= f) = .ok b) :
    ∃ a, x = .ok a ∧ f a = .ok b := by
  cases x with
  | error => cases h
  | ok a => exact ⟨a, rfl, h⟩

end Failure

end LineCensus
