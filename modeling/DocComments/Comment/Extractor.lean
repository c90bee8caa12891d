import DocComments.Comment.Scan
import DocComments.Text.LineMap
import DocComments.Text.Quoted

/-!
# Extracting comments

An extractor finds the documentation comments of a source and asks a resolver what the code behind
each of them is. The resolver may belong to a monad, and then `Markers.extractM` calls it there, for
one comment after the other; an `Extractor` has a resolver that only computes.
-/

namespace DocComments

/-- Classifies the code behind a comment, given that code and the line numbers in it. -/
abbrev Resolver := String → LineLookup → Context

/-- Finds documentation comments. -/
structure Extractor where
  resolver : Resolver
  markers : Markers

/-- A resolver that does more than compute, such as count its calls. -/
abbrev ResolverM (m : Type → Type) := String → LineLookup → m Context

/-- The lines that a located comment covers. -/
def Extractor.rangeOf (map : LineMap) (found : Match) : LineRange :=
  let first := map.lineAt found.start
  { first, last := first + found.raw.breaks }

/-- What a located comment is, given what the code behind it is. -/
def Match.toComment (markers : Markers) (map : LineMap) (found : Match) (context : Context) :
    Comment where
  lines := (found.shape.lines markers).map String.ofList
  role := found.shape.role markers
  range := Extractor.rangeOf map found
  context := context

/-- All documentation comments of a source, in order. -/
def Markers.extractM {m : Type → Type} [Monad m] (markers : Markers) (resolver : ResolverM m)
    (source : String) : m (List Comment) :=
  let map := LineMap.ofString source
  (markers.scan 0 source.toList).mapM fun found => do
    let context ← resolver (String.ofList found.rest) ⟨map, found.stop⟩
    return found.toComment markers map context

namespace Extractor

/-- The extractor for comments with the given delimiters. -/
def ofDelimiters (resolver : Resolver) (delimiters : Delimiters) : Extractor :=
  ⟨resolver, delimiters.markers⟩

/-- All documentation comments of a source, in order. -/
def extract (extractor : Extractor) (source : String) : List Comment :=
  Id.run (extractor.markers.extractM (fun rest lines => pure (extractor.resolver rest lines)) source)

theorem extract_eq_map (extractor : Extractor) (source : String) :
    let map := LineMap.ofString source
    extractor.extract source = (extractor.markers.scan 0 source.toList).map fun found =>
      found.toComment extractor.markers map
        (extractor.resolver (String.ofList found.rest) ⟨map, found.stop⟩) :=
  List.idRun_mapM

/-- The extractor as it is shown to a person, who cannot see into its resolver. -/
def describe (extractor : Extractor) : String :=
  let markers := extractor.markers
  String.ofList <|
    "CommentExtractor \x7b markers: Markers \x7b block_open: ".toList ++
      Text.quoted markers.blockOpen ++
      ", block_close: ".toList ++ Text.quoted markers.blockClose ++
      ", block_char: ".toList ++ Text.quotedSingle markers.blockChar ++
      ", line_doc: ".toList ++ Text.quoted markers.lineDoc ++
      ", line_char: ".toList ++ Text.quotedSingle markers.lineChar ++
      " \x7d, .. \x7d".toList

end Extractor

end DocComments
