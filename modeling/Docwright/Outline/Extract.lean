import Docwright.Log
import Docwright.Outline.Python
import Docwright.Outline.Script

/-!
# Outlining source files

`extract` outlines one file of a dialect: the bytes must be text and the syntax tree must be sound.
`outline` goes over the files of a batch; a file that no dialect knows, that cannot be outlined or
that declares nothing contributes nothing to the result and leaves a record behind.
-/

namespace Docwright.Outline

/-- Why a file yields no symbols. -/
inductive ExtractFault
  /-- The source cannot be outlined. -/
  | unparseable (fault : ParseFault)
  /-- A declaration in it is no symbol. -/
  | badSymbol (fault : SymbolFault)
  deriving DecidableEq, Repr

/-- The syntax tree of a source, provided that the bytes are text and the tree is sound. -/
def soundTree (trees : TreeSource) (grammar : Grammar) (source : List UInt8) :
    Except ParseFault Node :=
  match Text.Utf8.decode? source with
  | .error fault => .error (.undecodable fault)
  | .ok _ =>
    let root := trees grammar source
    if root.isBroken then .error (.syntaxError (root.firstFault?.getD root).lines.1)
    else .ok root

/-- The symbols below the root of a syntax tree of the dialect. -/
def symbolsOf (dialect : Dialect) (source : List UInt8) (root : Node) :
    Except SymbolFault (List Symbol) :=
  match dialect with
  | .python => Python.collect source true root.children
  | .javaScript => Script.collect false source true root.children
  | .typeScript => Script.collect true source true root.children

/-- The symbols of a file of the dialect, in the order of the source. -/
def extract (trees : TreeSource) (dialect : Dialect) (path : String) (source : List UInt8) :
    Except ExtractFault (List Symbol) :=
  match soundTree trees (dialect.grammarOf path) source with
  | .error fault => .error (.unparseable fault)
  | .ok root =>
    match symbolsOf dialect source root with
    | .error fault => .error (.badSymbol fault)
    | .ok symbols => .ok symbols

/-- The outline of one file, if it has one, with the records that are written on the way. A
declaration that is no symbol ends everything. -/
def outlineFile (trees : TreeSource) (f : SourceFile) :
    Log × Except SymbolFault (Option Outline) :=
  match Dialect.of? f.path with
  | none => ([⟨.debug, "parser", s!"No adapter for {f.path}; skipping"⟩], .ok none)
  | some dialect =>
    match extract trees dialect f.path f.content with
    | .error (.unparseable fault) =>
      ([⟨.warning, "parser", s!"Skipping unparseable file {f.path}: {fault.reason}"⟩], .ok none)
    | .error (.badSymbol fault) => ([], .error fault)
    | .ok symbols =>
      if symbols.isEmpty then
        ([⟨.debug, "parser", s!"No named declarations in {f.path}"⟩], .ok none)
      else ([], .ok (some ⟨f.path, symbols, some (dialect.languageOf f.path)⟩))

/-- The outlines of the files of a batch, in order, with the records that are written on the way. -/
def outline (trees : TreeSource) : List SourceFile → Log × Except SymbolFault (List Outline)
  | [] => ([], .ok [])
  | f :: rest =>
    match outlineFile trees f with
    | (log, .error fault) => (log, .error fault)
    | (log, .ok found) =>
      let (more, result) := outline trees rest
      (log ++ more, result.map (found.toList ++ ·))

end Docwright.Outline
