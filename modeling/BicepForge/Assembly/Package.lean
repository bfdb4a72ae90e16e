import BicepForge.Assembly.Basic

/-!
# Deployment packages

The files that a user takes away: the documents of an assembly, a description and a script that
deploys them.
-/

namespace BicepForge.Assembly

/-- A file of a package; its path goes down with slashes. -/
structure PackageFile where
  path : String
  contents : String
deriving DecidableEq

namespace Package

def unlines (lines : List String) : String :=
  String.join (lines.map (· ++ "\n"))

/-- What is said of a package with resources of these names. -/
def readme (names : List String) : String :=
  unlines
    (["# Azure Deployment Package",
      "",
      "This package contains Bicep templates for deploying Azure resources.",
      "",
      "## Resources Included",
      "",
      String.intercalate "\n" (names.map fun name => "- " ++ name),
      "",
      "## Deployment Instructions",
      "",
      "### Prerequisites",
      "- Azure CLI installed",
      "- Azure subscription access",
      "- Resource group created",
      "",
      "### Deploy using Azure CLI",
      "",
      "```bash",
      "# Login to Azure",
      "az login",
      "",
      "# Set subscription",
      "az account set --subscription <your-subscription-id>",
      "",
      "# Create resource group (if not exists)",
      "az group create --name <resource-group-name> --location <location>",
      "",
      "# Deploy the template",
      "az deployment group create \\",
      "  --resource-group <resource-group-name> \\",
      "  --template-file main.bicep \\",
      "  --parameters @main.parameters.json",
      "```",
      "",
      "### Deploy using PowerShell",
      "",
      "```powershell",
      "# Run the provided deployment script",
      ".\\deploy.ps1 -ResourceGroupName \"<resource-group-name>\" -Location \"<location>\"",
      "```",
      "",
      "## Customization",
      "",
      "Edit the `main.parameters.json` file to customize the deployment parameters for your " ++
        "environment.",
      "",
      "Generated by " ++ Generation.generatorName])

def deployScript : String :=
  unlines
    ["# Azure Deployment Script",
     "# Generated by " ++ Generation.generatorName,
     "",
     "param(",
     "    [Parameter(Mandatory=$true)]",
     "    [string]$ResourceGroupName,",
     "",
     "    [Parameter(Mandatory=$true)]",
     "    [string]$Location,",
     "",
     "    [Parameter(Mandatory=$false)]",
     "    [string]$SubscriptionId,",
     "",
     "    [Parameter(Mandatory=$false)]",
     "    [string]$ParametersFile = \"main.parameters.json\"",
     ")",
     "",
     "Write-Host \"Starting Azure deployment...\" -ForegroundColor Green",
     "",
     "# Login check",
     "try \x7b",
     "    $context = Get-AzContext",
     "    if (!$context) \x7b",
     "        Write-Host \"Please login to Azure first...\" -ForegroundColor Yellow",
     "        Connect-AzAccount",
     "    \x7d",
     "\x7d catch \x7b",
     "    Write-Host \"Please install Azure PowerShell module: Install-Module -Name Az\" " ++
       "-ForegroundColor Red",
     "    exit 1",
     "\x7d",
     "",
     "# Set subscription if provided",
     "if ($SubscriptionId) \x7b",
     "    Set-AzContext -SubscriptionId $SubscriptionId",
     "\x7d",
     "",
     "# Create resource group if it doesn't exist",
     "$rg = Get-AzResourceGroup -Name $ResourceGroupName -ErrorAction SilentlyContinue",
     "if (!$rg) \x7b",
     "    Write-Host \"Creating resource group: $ResourceGroupName\" -ForegroundColor Yellow",
     "    New-AzResourceGroup -Name $ResourceGroupName -Location $Location",
     "\x7d",
     "",
     "# Deploy Bicep template",
     "Write-Host \"Deploying Bicep template...\" -ForegroundColor Yellow",
     "try \x7b",
     "    $deploymentArgs = @\x7b",
     "        ResourceGroupName = $ResourceGroupName",
     "        TemplateFile = \"main.bicep\"",
     "        Verbose = $true",
     "    \x7d",
     "    if (Test-Path $ParametersFile) \x7b",
     "        $deploymentArgs.TemplateParameterFile = $ParametersFile",
     "    \x7d",
     "    $deployment = New-AzResourceGroupDeployment @deploymentArgs",
     "",
     "    Write-Host \"Deployment completed successfully!\" -ForegroundColor Green",
     "    Write-Host \"Deployment Name: $($deployment.DeploymentName)\" -ForegroundColor Cyan",
     "",
     "    if ($deployment.Outputs.Count -gt 0) \x7b",
     "        Write-Host \"`nDeployment Outputs:\" -ForegroundColor Cyan",
     "        $deployment.Outputs.GetEnumerator() | ForEach-Object \x7b",
     "            Write-Host \"  $($_.Key): $($_.Value.Value)\" -ForegroundColor White",
     "        \x7d",
     "    \x7d",
     "\x7d catch \x7b",
     "    Write-Host \"Deployment failed: $($_.Exception.Message)\" -ForegroundColor Red",
     "    exit 1",
     "\x7d"]

end Package

/-- The files of an assembly: the main document, its parameters if they go with it, the modules, the
description and the script. -/
def package (a : Assembly) : List PackageFile :=
  [⟨"main.bicep", a.document.text⟩] ++
    (a.parametersFile?.map fun v => ⟨"main.parameters.json", v.pretty ++ "\n"⟩).toList ++
    a.modules.map (fun m => ⟨m.path, m.document.text⟩) ++
    [⟨"README.md", Package.readme (a.members.map (·.entry.name))⟩,
     ⟨"deploy.ps1", Package.deployScript⟩]

end BicepForge.Assembly
