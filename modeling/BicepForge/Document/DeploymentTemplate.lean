import BicepForge.Document.ResourceSchema
import BicepForge.Text.Search

/-!
# Deployment templates

A whole deployment in JSON: parameters, variables, resources and outputs. Like a resource schema
it is kept as it was written.
-/

namespace BicepForge

/-- A deployment template document. -/
structure DeploymentTemplate where
  document : Json
deriving DecidableEq

namespace DeploymentTemplate

/-- The part of a `$schema` by which a deployment template is known. -/
def schemaMarker : String := "deploymentTemplate"

def parametersSchemaUri : String :=
  "https://schema.management.azure.com/schemas/2019-04-01/deploymentParameters.json#"

def schemaUri? (t : DeploymentTemplate) : Option String :=
  (t.document.get? "$schema").bind Json.wording?

/-- Whether the `$schema` is that of deployment templates. -/
def namesTemplateSchema (t : DeploymentTemplate) : Bool :=
  t.schemaUri?.any (Text.occursIn schemaMarker)

def contentVersion? (t : DeploymentTemplate) : Option String :=
  (t.document.get? "contentVersion").bind Json.wording?

def parameters? (t : DeploymentTemplate) : Option (List (String × Json)) :=
  t.document.object? "parameters"

def variables? (t : DeploymentTemplate) : Option (List (String × Json)) :=
  t.document.object? "variables"

def outputs? (t : DeploymentTemplate) : Option (List (String × Json)) :=
  t.document.object? "outputs"

/-- The resources, if they are a list. -/
def resources? (t : DeploymentTemplate) : Option (List Json) :=
  t.document.array? "resources"

def hasResources (t : DeploymentTemplate) : Bool :=
  (t.document.get? "resources").isSome

end DeploymentTemplate

end BicepForge
