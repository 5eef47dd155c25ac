import Uplift.Rewrite.Treatment

/-!
# The chain family

The steps of documents that describe chains of elements. Version 101 moves a flat document's fields
into its content and settles the names of fields; versions 102 and 103 tidy the properties of
elements, type by type.
-/

set_option autoImplicit false

namespace Uplift.Chain

def standardKeySerializer : String :=
  "org.apache.kafka.common.serialization.StringSerializer"

/-- A trigger without an action on failure gets the default one, and with it an empty handler,
unless it has one. -/
def settleFailureHandling : Rule := fun _ properties =>
  if properties.contains (.text "handleChainFailureAction") then .none
  else
    let action := Edit.set "handleChainFailureAction" (Value.text "default")
    if properties.contains (.text "chainFailureHandlerContainer") then .ofEdits [action]
    else .ofEdits [action, .set "chainFailureHandlerContainer" (.object [])]

/-- A priority that is given as text becomes the integer that it says. A text that is no integer
stays, and a warning says so. -/
def readPriority : FallibleRule := fun stepId properties =>
  match properties.lookup (.text "priority") with
  | some (.scalar (.text written)) =>
      if Digits.isSignedRun written.toList then
        (Digits.readSigned written.toList).map fun priority =>
          .ofEdits [.set "priority" (.int priority)]
      else
        .ok (.warn stepId ("Failed to convert priority value from string to integer: "
          ++ Text.quoted written))
  | _ => .ok .none

/-- The rules of version 102 for the properties of an element, by its type. -/
def propertyRules102 (elementType : String) : Option FallibleRule :=
  if elementType = "async-api-trigger" then
    some (FallibleRule.dropIfEmpty "asyncValidationSchema")
  else if elementType = "http-trigger" then some (Rule.fallible settleFailureHandling)
  else if elementType = "if" then some readPriority
  else if elementType = "service-call" then some (FallibleRule.dropIfEmpty "before")
  else none

/-- The rules of version 103 for the properties of an element, by its type. -/
def propertyRules103 (elementType : String) : Option FallibleRule :=
  if elementType = "loop-2" then some (FallibleRule.dropIfBlank "maxLoopIteration")
  else if elementType = "kafka-trigger-2" then
    some (FallibleRule.dropIfBlank "reconnectBackoffMaxMs")
  else none

def label : String := "chain"

def v101 : Blueprint where
  label := label
  version := 101
  description := "move fields into content, rename legacy property keys"
  treatments :=
    [ .promote,
      .everyObject (Rule.renameField "properties-filename" "propertiesFilename").fallible,
      .everyObject (FallibleRule.fillBlank "keySerializer" (.text standardKeySerializer)),
      .eachElement (Rule.renameField "element-type" "type").fallible ]

def v102 : Blueprint where
  label := label
  version := 102
  description := "normalize trigger, condition and service-call properties"
  treatments := [.elementProperties propertyRules102]

def v103 : Blueprint where
  label := label
  version := 103
  description := "drop blank loop and kafka trigger limits"
  treatments := [.elementProperties propertyRules103]

def blueprints : List Blueprint := [v101, v102, v103]

end Uplift.Chain
