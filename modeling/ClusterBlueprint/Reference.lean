import ClusterBlueprint.Expression.Printer
import ClusterBlueprint.Fault
import ClusterBlueprint.Text.Split

/-!
References to global variables and to the outputs of modules.

A reference is spelled in two ways.  In expressions it is a traversal, `var.NAME` or
`module.ID.OUTPUT`, and further steps go into its value.  In documents it is dotted text,
`vars.NAME`, `ID.OUTPUT` or `GROUP.ID.OUTPUT`, where the group says nothing new.
-/

namespace ClusterBlueprint

inductive Reference where
  | global (name : String)
  | output (group : Option String) (module name : String)
deriving DecidableEq

namespace Reference

def globalRoot : String := "var"

def moduleRoot : String := "module"

/-- The name that stands for the global variables in documents. -/
def globalNamespace : String := "vars"

def ofModule (module name : String) : Reference := .output none module name

def isGlobal : Reference → Bool
  | global _ => true
  | output .. => false

def name : Reference → String
  | global name => name
  | output _ _ name => name

def module? : Reference → Option String
  | global _ => none
  | output _ module _ => some module

def group? : Reference → Option String
  | global _ => none
  | output group _ _ => group

def toTerm : Reference → Term
  | global name => .ofNames globalRoot [name]
  | output _ module name => .ofNames moduleRoot [module, name]

def text (reference : Reference) : String := reference.toTerm.text

/-- Outputs come before global variables; outputs are ordered by group, none first, then by module
and name. -/
def before : Reference → Reference → Bool
  | global a, global b => a < b
  | global _, output .. => false
  | output .., global _ => true
  | output g m a, output h n b =>
    match g, h with
    | none, some _ => true
    | some _, none => false
    | none, none => m < n || (m = n && a < b)
    | some g, some h => g < h || (g = h && (m < n || (m = n && a < b)))

def formatFault (text reason : String) : Fault := Cause.referenceFormat text reason

def parseText (text : String) : Checked Reference :=
  let components := Text.split '.' text
  if components.any String.isEmpty then .error (formatFault text "empty reference component")
  else
    match components with
    | [first, name] =>
      .ok (if first = globalNamespace then .global name else .ofModule first name)
    | [first, module, name] =>
      if first = globalNamespace then
        .error (formatFault text
          "global variable attributes are not references, expected vars.NAME")
      else .ok (.output (some first) module name)
    | _ => .error (formatFault text "expected vars.NAME, MODULE.NAME or GROUP.MODULE.NAME")

def ofTraversal (root : String) (steps : List Step) : Checked Reference :=
  let wrong (reason : String) : Checked Reference :=
    .error (formatFault (Term.traversal root steps).text reason)
  if root = globalRoot then
    match steps with
    | .attribute name :: _ => .ok (.global name)
    | _ => wrong "expected second component of global var reference to be a variable name"
  else if root = moduleRoot then
    match steps with
    | .attribute module :: .attribute name :: _ => .ok (.ofModule module name)
    | .attribute _ :: _ =>
      wrong "expected third component of module var reference to be a variable name"
    | _ => wrong "expected second component of module var reference to be a module name"
  else wrong ("unexpected first component of reference: " ++ Text.quoted root)

end Reference

end ClusterBlueprint
