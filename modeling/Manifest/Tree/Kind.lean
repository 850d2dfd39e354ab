import Manifest.Text.Quoted

/-!
# Kinds of elements

What an element of the syntax tree stands for, with the names that listings use.
-/

namespace Manifest

inductive ElementKind where
  | root
  | blob
  | identifier
  | variable
  | variableDefinition
  | string
  | classRef
  | typeReference
  | functionCall
  | resource
  | resourceAttribute
  | classDecl
  | nodeDecl
  | defineDecl
  | caseStmt
  | condition
  | classParam
  deriving DecidableEq, Repr

structure UnknownElementKind where
  name : List Char
  deriving DecidableEq, Repr

def UnknownElementKind.message (unknown : UnknownElementKind) : String :=
  Quoted.render unknown.name ++ " is not a valid ElementKind"

namespace ElementKind

def all : List ElementKind :=
  [.root, .blob, .identifier, .variable, .variableDefinition, .string, .classRef,
    .typeReference, .functionCall, .resource, .resourceAttribute, .classDecl, .nodeDecl,
    .defineDecl, .caseStmt, .condition, .classParam]

def name : ElementKind → String
  | .root => "root"
  | .blob => "blob"
  | .identifier => "identifier"
  | .variable => "variable"
  | .variableDefinition => "variable_definition"
  | .string => "string"
  | .classRef => "class_ref"
  | .typeReference => "type_reference"
  | .functionCall => "function_call"
  | .resource => "resource"
  | .resourceAttribute => "resource_attribute"
  | .classDecl => "class"
  | .nodeDecl => "node"
  | .defineDecl => "define"
  | .caseStmt => "case"
  | .condition => "condition"
  | .classParam => "class_param"

def title (kind : ElementKind) : String :=
  kind.name.toUpper

def ofName (name : String) : Except UnknownElementKind ElementKind :=
  match all.find? fun kind => kind.name == name with
  | some kind => .ok kind
  | none => .error ⟨name.toList⟩

def isOutlined : ElementKind → Bool
  | .classDecl | .defineDecl | .nodeDecl | .resource => true
  | _ => false

end ElementKind

end Manifest
