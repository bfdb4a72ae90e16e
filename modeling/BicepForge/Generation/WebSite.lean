import BicepForge.Generation.Recipe

/-!
# The recipe of web sites
-/

namespace BicepForge.Generation

open Bicep

/-- A web site runs on a given plan; its settings and connection strings come as lists. -/
def webSiteRecipe : Recipe where
  parameters? := some fun _ =>
    [{ name := "appServicePlanId", type := .string : Param }.describe
       "App Service Plan resource ID",
     ({ name := "appSettings", type := .array : Param }.describe "Application settings").withDefault
       (.array []),
     ({ name := "connectionStrings", type := .array : Param }.describe
       "Connection strings").withDefault (.array []),
     switch "httpsOnly" "Enable HTTPS only" true,
     choice "runtimeStack" "Runtime stack" ["dotnet", "node", "python", "java", "php"] "dotnet"]
  vars :=
    [⟨"appSettingsFormatted", .forEach "setting" "appSettings" (.object
       [.ref "name" "setting.name", .ref "value" "setting.value"])⟩,
     ⟨"connectionStringsFormatted", .forEach "conn" "connectionStrings" (.object
       [.ref "name" "conn.name",
        .ref "connectionString" "conn.connectionString",
        .ref "type" "conn.type"])⟩]
  settings? := some fun _ _ =>
    [.nest "properties"
      [.ref "serverFarmId" "appServicePlanId",
       .ref "httpsOnly" "httpsOnly",
       .nest "siteConfig"
         [.ref "appSettings" "appSettingsFormatted",
          .ref "connectionStrings" "connectionStringsFormatted",
          .property "metadata" (.array [.object
            [.lit "name" "CURRENT_STACK", .ref "value" "runtimeStack"]])]]]
  outputs symbol :=
    [{ name := "defaultHostName", type := .string
       value := .expr (symbol ++ ".properties.defaultHostName")
       description? := some "Default hostname of the web app" },
     { name := "outboundIpAddresses", type := .string
       value := .expr (symbol ++ ".properties.outboundIpAddresses")
       description? := some "Outbound IP addresses" },
     { name := "siteUrl", type := .string
       value := .interp ("https://" ++ hole (symbol ++ ".properties.defaultHostName"))
       description? := some "Site URL" }]

end BicepForge.Generation
