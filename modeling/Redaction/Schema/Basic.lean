import Redaction.Schema.Annotation

/-!
# Schemas

The description of one source file: its messages with their fields, its services with their methods,
the files that it imports, and the redaction options attached to each. The functions that change one
part of a description and keep the rest are named for the part.

How the name of a type is written in the generated file is a `Naming`. Resolution takes one as a
parameter; the table of imports of a file gives one.
-/

namespace Redaction

/-- The name of a message or enum type. -/
structure TypeName where
  /-- The name of the generated Go type. -/
  name : String
  /-- The qualified name in the schema. -/
  fullName : String
  /-- The import path of the Go package with the type; empty for the package of the file itself. -/
  importPath : String
deriving DecidableEq

namespace TypeName

/-- A type of the package of the file itself. -/
def ofNames (name fullName : String) : TypeName := ⟨name, fullName, ""⟩

/-- The type in the package at a path. -/
def inPackage (t : TypeName) (path : String) : TypeName := { t with importPath := path }

end TypeName

/-- A way to write the names of types. -/
abbrev Naming := TypeName → String

namespace Naming

/-- Every type by its bare name. -/
def bare : Naming := TypeName.name

/-- Every type by its qualified name in the schema. -/
def qualified : Naming := TypeName.fullName

/-- Every type by its bare name behind a fixed text. -/
def behind (text : String) : Naming := fun t => text ++ t.name

end Naming

/-- A field of a message. -/
structure Field where
  name : String
  /-- The kind of the value, or of the elements of a collection. -/
  kind : Kind
  multiplicity : Multiplicity
  /-- Whether the schema marks the field as optional. -/
  isOptional : Bool
  /-- The type of a value that is a message or an enum value. -/
  type : Option TypeName
  annotation : Option Annotation

namespace Field

/-- A field with one value and no options. -/
def ofKind (name : String) (kind : Kind) : Field := ⟨name, kind, .singular, false, none, none⟩

/-- The field with its type named. -/
def ofType (f : Field) (t : TypeName) : Field := { f with type := some t }

/-- A field with one embedded message. -/
def embedding (name : String) (t : TypeName) : Field := (ofKind name .message).ofType t

/-- The field with a list of values. -/
def asList (f : Field) : Field := { f with multiplicity := .repeated }

/-- The field with a map of values. -/
def asMap (f : Field) (key : Kind) : Field := { f with multiplicity := .map key }

/-- The field marked as optional. -/
def asOptional (f : Field) : Field := { f with isOptional := true }

/-- The field with new redaction options. -/
def withAnnotation (f : Field) (a : Annotation) : Field := { f with annotation := some a }

/-- The payload of the structured rule in the field's options. -/
def rule? (f : Field) : Option Payload := f.annotation.bind Annotation.custom

/-- Whether the field's options have the bare flag. -/
def isFlagged (f : Field) : Bool := f.annotation.any Annotation.redact

end Field

/-- The redaction options of a message: the flags of its overrides. -/
structure OverrideFlags where
  ignored : Bool
  nil : Bool
  empty : Bool
deriving DecidableEq

/-- No option. -/
def OverrideFlags.unset : OverrideFlags := ⟨false, false, false⟩

/-- A message type with its fields in the order of the schema. -/
structure Message where
  type : TypeName
  fields : List Field
  options : OverrideFlags

namespace Message

/-- A message without fields and options. -/
def ofType (t : TypeName) : Message := ⟨t, [], .unset⟩

/-- The name of the generated Go type. -/
def name (m : Message) : String := m.type.name

/-- The qualified name in the schema. -/
def fullName (m : Message) : String := m.type.fullName

/-- The message with one more field. -/
def push (m : Message) (f : Field) : Message := { m with fields := m.fields ++ [f] }

/-- The message with new options. -/
def configured (m : Message) (o : OverrideFlags) : Message := { m with options := o }

end Message

/-- The options for calls of a service or a method. A method takes from its service what it leaves
unset. -/
structure CallOptions where
  skip : Bool
  internal : Bool
  code : Option UInt32
  errorMessage : Option String
deriving DecidableEq

/-- No option. -/
def CallOptions.unset : CallOptions := ⟨false, false, none, none⟩

/-- A method of a service. -/
structure Method where
  name : String
  fullName : String
  input : Option TypeName
  output : Option Message
  clientStreaming : Bool
  serverStreaming : Bool
  options : CallOptions

namespace Method

/-- A method with one request and one response. -/
def ofTypes (name fullName : String) (input : TypeName) (output : Message) : Method :=
  ⟨name, fullName, some input, some output, false, false, .unset⟩

/-- The method with new options. -/
def configured (m : Method) (o : CallOptions) : Method := { m with options := o }

/-- The method with its streams set. -/
def withStreams (m : Method) (client server : Bool) : Method :=
  { m with clientStreaming := client, serverStreaming := server }

end Method

/-- A service with its methods in the order of the schema. -/
structure Service where
  name : String
  fullName : String
  methods : List Method
  options : CallOptions

namespace Service

/-- A service without methods and options. -/
def ofNames (name fullName : String) : Service := ⟨name, fullName, [], .unset⟩

/-- The service with one more method. -/
def push (s : Service) (m : Method) : Service := { s with methods := s.methods ++ [m] }

/-- The service with new options. -/
def configured (s : Service) (o : CallOptions) : Service := { s with options := o }

end Service

/-- A file that another one imports. -/
structure Import where
  importPath : String
  /-- The name that the Go package at the path declares. -/
  packageName : String
  /-- The first type or service that the file declares, if it declares any. -/
  firstSymbol : Option TypeName
deriving DecidableEq

/-- A source file. -/
structure SourceFile where
  name : String
  /-- The name of the Go package that is generated. -/
  package : String
  /-- The import path of the Go package that is generated. -/
  importPath : String
  imports : List Import
  messages : List Message
  services : List Service
  /-- Whether the whole file is left out. -/
  skip : Bool

end Redaction
