import LabOS.Core.PolicyEngine

/-!
# The built-in profiles

`DEFAULT_PROFILES`, the table the policy engine of the application starts with.
-/

namespace LabOS

def safeDev : Profile where
  name := "safe-dev"
  runtimeClass := .container
  riskClass := .low
  networkMode := .restricted
  filesystemMode := .managed
  persistenceMode := .ephemeral
  exportMode := .request
  cpuLimit := 2
  memoryMb := 2048
  diskMb := 8192
  maxRuntimeMinutes := 60
  approvalOnStart := false
  approvalOnExport := false
  auditLevel := .basic
  retentionDays := 3
  allowHostMounts := false
  allowedSecretNames := []
  valid := by decide

def modelLocal : Profile where
  name := "model-local"
  runtimeClass := .container
  riskClass := .medium
  networkMode := .restricted
  filesystemMode := .managed
  persistenceMode := .persistent
  exportMode := .request
  cpuLimit := 4
  memoryMb := 8192
  diskMb := 51200
  maxRuntimeMinutes := 480
  approvalOnStart := false
  approvalOnExport := true
  auditLevel := .detailed
  retentionDays := 14
  allowHostMounts := false
  allowedSecretNames := []
  valid := by decide

def researchPersistent : Profile where
  name := "research-persistent"
  runtimeClass := .container
  riskClass := .high
  networkMode := .restricted
  filesystemMode := .managed
  persistenceMode := .persistent
  exportMode := .approval
  cpuLimit := 8
  memoryMb := 16384
  diskMb := 102400
  maxRuntimeMinutes := 4320
  approvalOnStart := false
  approvalOnExport := true
  auditLevel := .forensic
  retentionDays := 30
  allowHostMounts := false
  allowedSecretNames := []
  valid := by decide

def redZone : Profile where
  name := "red-zone"
  runtimeClass := .microvm
  riskClass := .critical
  networkMode := .deny
  filesystemMode := .readOnlyRoot
  persistenceMode := .ephemeral
  exportMode := .approval
  cpuLimit := 4
  memoryMb := 4096
  diskMb := 16384
  maxRuntimeMinutes := 120
  approvalOnStart := true
  approvalOnExport := true
  auditLevel := .forensic
  retentionDays := 7
  allowHostMounts := false
  allowedSecretNames := []
  valid := by decide

/-- `DEFAULT_PROFILES`. -/
def defaultProfiles : Profiles :=
  [safeDev, modelLocal, researchPersistent, redZone].map fun profile => (profile.name, profile)

end LabOS
