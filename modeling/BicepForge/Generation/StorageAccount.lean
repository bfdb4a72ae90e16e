import BicepForge.Generation.Recipe

/-!
# The recipe of storage accounts
-/

namespace BicepForge.Generation

open Bicep

/-- How one service of a storage account is encrypted. -/
def encryptedService : Body :=
  [.lit "keyType" "Account", .flag "enabled" true]

/-- A storage account is named without hyphens, encrypts its services, and hands out its keys. -/
def storageAccountRecipe : Recipe where
  parameters? := some fun _ =>
    [choice "skuName" "Storage account SKU"
       ["Standard_LRS", "Standard_GRS", "Standard_RAGRS", "Standard_ZRS", "Premium_LRS",
        "Premium_ZRS"] "Standard_LRS",
     choice "kind" "Storage account kind"
       ["Storage", "StorageV2", "BlobStorage", "FileStorage", "BlockBlobStorage"] "StorageV2",
     choice "accessTier" "Access tier for blob storage" ["Hot", "Cool"] "Hot",
     switch "allowBlobPublicAccess" "Allow blob public access" false,
     switch "supportsHttpsTrafficOnly" "Require secure transfer" true]
  vars :=
    [⟨"storageAccountName", .expr "replace(resourceNameFormatted, '-', '')"⟩,
     ⟨"networkAcls", .object [.lit "defaultAction" "Allow", .lit "bypass" "AzureServices"]⟩]
  settings? := some fun _ _ =>
    [.nest "sku" [.ref "name" "skuName"],
     .ref "kind" "kind",
     .nest "properties"
       [.ref "accessTier" "accessTier",
        .ref "allowBlobPublicAccess" "allowBlobPublicAccess",
        .ref "supportsHttpsTrafficOnly" "supportsHttpsTrafficOnly",
        .ref "networkAcls" "networkAcls",
        .nest "encryption"
          [.nest "services" [.nest "file" encryptedService, .nest "blob" encryptedService],
           .lit "keySource" "Microsoft.Storage"]]]
  outputs symbol :=
    [{ name := "primaryEndpoints", type := .object
       value := .expr (symbol ++ ".properties.primaryEndpoints")
       description? := some "Primary endpoints of the storage account" },
     { name := "primaryKey", type := .string
       value := .expr (symbol ++ ".listKeys().keys[0].value")
       description? := some "Primary access key of the storage account" },
     { name := "connectionString", type := .string
       value := .interp
         ("DefaultEndpointsProtocol=https;AccountName=" ++ hole (symbol ++ ".name") ++
          ";AccountKey=" ++ hole (symbol ++ ".listKeys().keys[0].value") ++
          ";EndpointSuffix=core.windows.net")
       description? := some "Connection string for the storage account" }]

end BicepForge.Generation
