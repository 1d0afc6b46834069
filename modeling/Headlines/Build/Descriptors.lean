import Headlines.Build.Requirement
import Headlines.Core.Utf8
import Headlines.Protobuf.Encoding

/-! # What a descriptor set says about its methods

A descriptor set is an encoding of its files, and they of their services and methods. In a protobuf message the last
of several strings counts, repeated fields are concatenated and the occurrences of a message are merged.
-/

namespace Headlines.Build

open Protobuf
open Core (bytes)

/-- The message `AuthRequirement`, with the numbers of the classes. -/
structure AuthRequirement where
  allowedSubjects : List Int32
  requiredScopes : List String

/-- Repeated fields of merged messages are concatenated. -/
def AuthRequirement.merge (one other : AuthRequirement) : AuthRequirement :=
  ⟨one.allowedSubjects ++ other.allowedSubjects, one.requiredScopes ++ other.requiredScopes⟩

def AuthRequirement.empty : AuthRequirement := ⟨[], []⟩

def AuthRequirement.merged (requirements : List AuthRequirement) : AuthRequirement := requirements.foldr .merge .empty

/-- An enum is a varint cut to 32 bits. -/
def enumValue (value : UInt64) : Int32 := value.toUInt32.toInt32

/-- A packed list of varints. -/
inductive Packed : List UInt64 → List UInt8 → Prop
  | nil : Packed [] []
  | cons {value : UInt64} {values : List UInt64} {raw rest : List UInt8} (encoded : Varint value raw)
      (others : Packed values rest) : Packed (value :: values) (raw ++ rest)

inductive RequirementField where
  | allowed (value : UInt64)
  | packed (values : List UInt64) (raw : List UInt8) (list : Packed values raw)
  | scope (s : String)

namespace RequirementField

def write : RequirementField → Field
  | allowed value => .varint 1 value
  | packed _ raw _ => .bytes 1 raw
  | scope s => .bytes 2 (bytes s)

def requirement : RequirementField → AuthRequirement
  | allowed value => ⟨[enumValue value], []⟩
  | packed values _ _ => ⟨values.map enumValue, []⟩
  | scope s => ⟨[], [s]⟩

end RequirementField

/-- An occurrence of the extension. -/
abbrev Occurrence := Message RequirementField.write [1, 2]

def Occurrence.requirement (occurrence : Occurrence) : AuthRequirement :=
  .merged (occurrence.values.map RequirementField.requirement)

def extension (occurrence : Occurrence) : Field := .bytes 50001 occurrence.raw

abbrev MethodOptions := Message extension [50001]

inductive MethodField where
  | name (s : String)
  | options (found : MethodOptions)

namespace MethodField

def write : MethodField → Field
  | name s => .bytes 1 (bytes s)
  | options found => .bytes 4 found.raw

def name? : MethodField → Option String
  | name s => some s
  | options _ => none

def options? : MethodField → Option MethodOptions
  | name _ => none
  | options found => some found

end MethodField

abbrev MethodDescriptor := Message MethodField.write [1, 4]

/-- The last of several strings counts. -/
def lastOf (names : List String) : String := names.getLast?.getD ""

namespace MethodDescriptor

def name (method : MethodDescriptor) : String := lastOf (method.values.filterMap MethodField.name?)

def options (method : MethodDescriptor) : List MethodOptions := method.values.filterMap MethodField.options?

/-- The extension as a decoder merges it. -/
def requirement (method : MethodDescriptor) : Option AuthRequirement :=
  if method.options.flatMap Message.values = [] then none
  else some (.merged ((method.options.flatMap Message.values).map Occurrence.requirement))

end MethodDescriptor

inductive ServiceField where
  | name (s : String)
  | method (m : MethodDescriptor)

namespace ServiceField

def write : ServiceField → Field
  | name s => .bytes 1 (bytes s)
  | method m => .bytes 2 m.raw

def name? : ServiceField → Option String
  | name s => some s
  | method _ => none

def method? : ServiceField → Option MethodDescriptor
  | name _ => none
  | method m => some m

end ServiceField

abbrev ServiceDescriptor := Message ServiceField.write [1, 2]

/-- A method under its full name, with the extension. -/
structure Method where
  full : String
  requirement : Option AuthRequirement

namespace ServiceDescriptor

def name (service : ServiceDescriptor) : String := lastOf (service.values.filterMap ServiceField.name?)

def methods (service : ServiceDescriptor) : List MethodDescriptor := service.values.filterMap ServiceField.method?

end ServiceDescriptor

inductive FileField where
  | package (s : String)
  | service (svc : ServiceDescriptor)

namespace FileField

def write : FileField → Field
  | package s => .bytes 2 (bytes s)
  | service svc => .bytes 6 svc.raw

def package? : FileField → Option String
  | package s => some s
  | service _ => none

def service? : FileField → Option ServiceDescriptor
  | package _ => none
  | service svc => some svc

end FileField

abbrev FileDescriptor := Message FileField.write [2, 6]

namespace FileDescriptor

def package (file : FileDescriptor) : String := lastOf (file.values.filterMap FileField.package?)

def services (file : FileDescriptor) : List ServiceDescriptor := file.values.filterMap FileField.service?

/-- The file is one of the program's own. -/
def own (file : FileDescriptor) : Bool := "headlines.".toList.isPrefixOf file.package.toList

end FileDescriptor

def fileOf (file : FileDescriptor) : Field := .bytes 1 file.raw

/-- A descriptor set, which fits a slice and has no group at its top. -/
structure DescriptorSet extends Message fileOf [1] where
  small : raw.length < 2 ^ 63
  plain : toMessage.Plain

/-! ## The methods of a descriptor set -/

def methodOf (package service : String) (method : MethodDescriptor) : Method :=
  ⟨"/" ++ package ++ "." ++ service ++ "/" ++ method.name, method.requirement⟩

def ServiceDescriptor.listed (package : String) (service : ServiceDescriptor) : List Method :=
  service.methods.map (methodOf package service.name)

def FileDescriptor.listed (file : FileDescriptor) : List Method :=
  if file.own then file.services.flatMap (ServiceDescriptor.listed file.package) else []

def DescriptorSet.listed (set : DescriptorSet) : List Method := set.values.flatMap FileDescriptor.listed

end Headlines.Build
