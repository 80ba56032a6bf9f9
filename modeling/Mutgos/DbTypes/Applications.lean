import Mutgos.DbTypes.PropertyDirectory
import Mutgos.DbTypes.Security

/-!
# Applications of an Entity

What `dbtype::PropertyEntity` keeps for each application: who owns it, who may read
and write its properties, and the properties.  The first name in the path of a
property is that of the application.

-/

namespace Mutgos.DbTypes

open Text

variable {δ : Type}

structure ApplicationProperties (δ : Type) where
  applicationOwner : Id
  /-- `application_security` -/
  security : Security
  /-- `application_properties` -/
  properties : PropertyDirectory δ

/-- `application_properties`: the applications by their names. -/
abbrev Applications (δ : Type) := List (ByteString × ApplicationProperties δ)

/-- A path without blanks around it and without separators in front. -/
def trimmedPath (fullPath : ByteString) : ByteString :=
  let path := trimCopy fullPath
  match path.findIdx? (· ≠ pathSeparator) with
  | none => path
  | some trimIndex => path.drop trimIndex

def getApplicationNameFromPath (fullPath : ByteString) : ByteString :=
  if trimCopy fullPath = [] then [] else (trimmedPath fullPath).takeWhile (· ≠ pathSeparator)

namespace Applications

/-- `get_application_properties`: the application that a path is in, and the rest of
the path. -/
def getApplicationProperties (apps : Applications δ) (fullPath : ByteString) :
    Option (ApplicationProperties δ × ByteString) :=
  if trimCopy fullPath = [] then none
  else
    let path := trimmedPath fullPath
    match path.findIdx? (· = pathSeparator) with
    | none => none
    | some trimIndex =>
      let applicationName := path.take trimIndex
      let propPath := path.drop (trimIndex + 1)
      if applicationName = [] ∨ propPath = [] then none
      else (SortedMap.find applicationName apps).map fun properties => (properties, propPath)

/-- `get_application_security_settings`: the owner and the security of an application,
or the defaults. -/
def getSecuritySettings (apps : Applications δ) (path : ByteString) : Id × Security :=
  match SortedMap.find (getApplicationNameFromPath path) apps with
  | some app => (app.applicationOwner, app.security)
  | none => (default, Security.empty)

/-- `get_property`.  The limit for names is for paths that are created. -/
def getProperty (apps : Applications δ) (path : ByteString) : Option δ :=
  match apps.getApplicationProperties path with
  | none => none
  | some (app, propPath) => (app.properties.getPropertyData 0 propPath).1

end Applications

end Mutgos.DbTypes
