import Dbgen3.Generator.Enums

/-!
# Documents and their texts

The nodes the parser of the repository tells apart. Reading the characters of a
text node is a call of the XML library and may end in an exception.
-/

namespace Dbgen3.Generator

open Text

/-- The attributes of an element: names and values. -/
abbrev Attrs := List (Str × Str)

/-- A node of a document. `other` is a node of a type without contents of interest. -/
inductive Dom
  | element (localName : Str) (attrs : Attrs) (children : List Dom)
  | text (data : Except Exc Str)
  | cdataSection (data : Except Exc Str)
  | comment
  | other (type : NodeType)

/-- `getAttribute`: empty for an attribute the element does not have. -/
def getAttribute (attrs : Attrs) (name : Str) : Str := (attrs.lookup name).getD []

/-- `core_parser::attr_value`. -/
def attrValue (attrs : Attrs) (name : Str) (default : Str) : Str :=
  let value := getAttribute attrs name
  if value ≠ [] then value else default

/-- `core_parser::attr_value_b`. -/
def attrValueB (attrs : Attrs) (name : Str) (default : Bool) : Bool :=
  let value := getAttribute attrs name
  if value ≠ [] then value == "true".toList else default

/-- `ctx_to_str`. -/
def ctxToStr (ctx : List Str) : Str :=
  let prompts : List Str := ["q-set".toList, "q"]
  ctx.zipIdx.flatMap fun (el, cnt) =>
    if cnt < prompts.length then "/" ++ prompts.getD cnt [] ++ ":" ++ el else "/:" ++ el

/-- `std::string::max_size`. -/
def maxSize : Nat := 2 ^ 63 - 2

/-- The data of a text node, after the check of its length. The entries of the context
that the message names are missing only where no text is that long. -/
def checkedData (data : Except Exc Str) (ctx : List Str) : Except Exc Str := do
  let txt ← data
  if txt.length ≥ maxSize then
    throw (.dbgen3Exc .sqlStatTooLong
      (message .sqlStatTooLong [decimal maxSize, ctx.getD 1 [], ctx.getD 2 []]))
  else pure txt

theorem checkedData_ok {txt : Str} (h : txt.length < maxSize) (ctx : List Str) :
    checkedData (.ok txt) ctx = .ok txt :=
  if_neg (Nat.not_le_of_lt h)

/-- The exception for a node that is neither text nor comment. -/
def notText (type : NodeType) (ctx : List Str) : Exc :=
  .runtimeError ("Should be DOMText, it was " ++ type.name ++ " ctx: " ++ ctxToStr ctx)

/-- The loop of `core_parser::get_text_node`. -/
def getTextNode (ctx : List Str) : List Dom → Except Exc Str
  | [] => .ok []
  | .text data :: rest | .cdataSection data :: rest => do
      let txt ← checkedData data ctx
      let r ← getTextNode ctx rest
      pure (txt ++ r)
  | .element _ _ _ :: _ => .error (.runtimeError "mixed contents")
  | .comment :: rest => getTextNode ctx rest
  | .other type :: _ => .error (notText type ctx)

/-- The loop of `core_parser::get_text_node_with_prepare`: the text and the text of the
last `prepare` element so far. -/
def getTextNodeWithPrepare (ctx : List Str) : Str → Str → List Dom → Except Exc (Str × Str)
  | r, prepareSql, [] => .ok (r, prepareSql)
  | r, prepareSql, .text data :: rest | r, prepareSql, .cdataSection data :: rest => do
      let txt ← checkedData data ctx
      getTextNodeWithPrepare ctx (r ++ txt) prepareSql rest
  | r, _, .element localName _ children :: rest =>
      if localName = "prepare".toList then do
        let prepareSql ← getTextNode ctx children
        getTextNodeWithPrepare ctx r prepareSql rest
      else .error (.runtimeError "mixed contents")
  | r, prepareSql, .comment :: rest => getTextNodeWithPrepare ctx r prepareSql rest
  | _, _, .other type :: _ => .error (notText type ctx)

end Dbgen3.Generator
