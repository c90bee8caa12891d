import DocComments.Tag.Completion
import DocComments.Tag.OwnEntry

/-!
# Reading tags

A tag reader turns comments into entries. It goes through the comments in order. The first poster
lends its fields to all normal comments behind it; a poster has no entry of its own in the result,
and any further one only gives a warning.
-/

namespace DocComments

/-- Reads the tags of comments. -/
structure TagReader where
  registry : Registry
  autofill : Autofill

namespace TagReader

/-- The reader with a registry and a choice of autofills, which may use aliases. -/
def new (registry : Registry) (choice : Autofill) : TagReader :=
  ⟨registry, choice.canonical registry⟩

/-- Finishes the entry of a normal comment: fields of the poster, then computed fields. -/
def finish (reader : TagReader) (poster : Option Entry) (own : Entry) : Entry × List Event :=
  let inherited :=
    match poster with
    | some poster => own.inherit reader.registry poster
    | none => own
  inherited.complete reader.autofill reader.registry.rules.entries

/-- Reads comments that follow the given poster, if there was one. -/
def readFrom (reader : TagReader) (poster : Option Entry) :
    List Comment → List Entry × List Event
  | [] => ([], [])
  | comment :: comments =>
    let (own, events) := reader.registry.ownEntry comment
    match comment.role with
    | .poster =>
      match poster with
      | none =>
        let (entries, later) := readFrom reader (some own) comments
        (entries, events ++ later)
      | some first =>
        let (entries, later) := readFrom reader (some first) comments
        (entries, events ++ .warn .multiplePosters :: later)
    | .normal =>
      let (entry, computed) := reader.finish poster own
      let (entries, later) := readFrom reader poster comments
      (entry :: entries, events ++ computed ++ later)

end TagReader

end DocComments
