import AmcCluster.Cluster

/-! Starting a backup or a restore: a start is refused while the active job of its kind
is in progress; otherwise the new job becomes the active handle, is saved, and runs. -/

namespace Amc.Models

/-- Modelled from the spec: `common.NewBackupRestore(...)`. -/
def newBackupRestore (type : BackupRestoreType) (clusterId ns destinationAddress username password
    destinationPath sets : String) (metadataOnly terminateOnChange : Bool) (scanPriority : Int)
    (status : BackupStatus) : BackupRestore :=
  ⟨type, clusterId, ns, destinationAddress, username, password, destinationPath, sets,
    metadataOnly, terminateOnChange, scanPriority, status⟩

structure BackupArgs where
  ns : String
  destinationAddress : String
  destinationPath : String
  username : String
  password : String
  sets : String
  metadataOnly : Bool
  terminateOnChange : Bool
  scanPriority : Int

structure RestoreArgs where
  ns : String
  destinationAddress : String
  destinationPath : String
  username : String
  password : String
  threads : Int
  missingRecordsOnly : Bool
  ignoreGenerationNum : Bool

inductive StartResult (α : Type) where
  | started (job : α) (executeErr : Option String)
  | failed (err : String)
  deriving DecidableEq, Repr

def inProgressErr : String := "Another backup operation already exists and is in progress."

/-- The body shared by `Backup` and `Restore`, from the active job, the job the call
builds, and what `Save()` and `Execute()` return: the result and the new active job. -/
def startJob {α : Type} (status : α → BackupStatus) (active : Option α) (job : α)
    (save execute : Option String) : StartResult α × Option α :=
  if active.any (status · = .inProgress) then (.failed inProgressErr, active)
  else match save with
    | some err => (.failed err, none)
    | none => (.started job execute, some job)

namespace Cluster

def backupJob (c : Cluster) (a : BackupArgs) : Backup :=
  ⟨newBackupRestore .backup c.id a.ns a.destinationAddress a.username a.password
    a.destinationPath a.sets a.metadataOnly a.terminateOnChange a.scanPriority .inProgress⟩

def restoreJob (c : Cluster) (a : RestoreArgs) : Restore :=
  ⟨newBackupRestore .restore c.id a.ns a.destinationAddress a.username a.password
    a.destinationPath "" false false 2 .inProgress, a.threads, a.missingRecordsOnly,
    a.ignoreGenerationNum⟩

/-- `Backup(...)`, given what `Save()` and `Execute()` return. -/
def backup (c : Cluster) (a : BackupArgs) (save execute : Option String) :
    StartResult Backup × Cluster :=
  let r := startJob (·.backupRestore.status) c.activeBackup (c.backupJob a) save execute
  (r.1, { c with activeBackup := r.2 })

def restore (c : Cluster) (a : RestoreArgs) (save execute : Option String) :
    StartResult Restore × Cluster :=
  let r := startJob (·.backupRestore.status) c.activeRestore (c.restoreJob a) save execute
  (r.1, { c with activeRestore := r.2 })

def currentBackup (c : Cluster) : Option Backup := c.activeBackup

def currentRestore (c : Cluster) : Option Restore := c.activeRestore

end Cluster

section
variable {α : Type} {status : α → BackupStatus} {active : Option α} (job : α)
  (save execute : Option String)

theorem startJob_inProgress (h : active.any (status · = .inProgress)) :
    startJob status active job save execute = (.failed inProgressErr, active) := by
  simp [startJob, h]

theorem startJob_saveFailed (h : active.any (status · = .inProgress) = false) {err : String} :
    startJob status active job (some err) execute = (.failed err, none) := by
  simp [startJob, h]

theorem startJob_saved (h : active.any (status · = .inProgress) = false) :
    startJob status active job none execute = (.started job execute, some job) := by
  simp [startJob, h]

end

namespace Cluster

def backupInProgress (c : Cluster) : Bool :=
  c.activeBackup.any (·.backupRestore.status = .inProgress)

def restoreInProgress (c : Cluster) : Bool :=
  c.activeRestore.any (·.backupRestore.status = .inProgress)

end Cluster

theorem backup_restore_start :
    (∀ (c : Cluster) (a : BackupArgs) (save execute : Option String),
      (c.backupInProgress → c.backup a save execute = (.failed inProgressErr, c)) ∧
      (c.backupInProgress = false → ∀ err, save = some err →
        c.backup a save execute = (.failed err, { c with activeBackup := none })) ∧
      (c.backupInProgress = false → save = none →
        c.backup a save execute = (.started (c.backupJob a) execute,
          { c with activeBackup := some (c.backupJob a) }) ∧
        (c.backupJob a).backupRestore.status = .inProgress)) ∧
    ∀ (c : Cluster) (a : RestoreArgs) (save execute : Option String),
      (c.restoreInProgress → c.restore a save execute = (.failed inProgressErr, c)) ∧
      (c.restoreInProgress = false → ∀ err, save = some err →
        c.restore a save execute = (.failed err, { c with activeRestore := none })) ∧
      (c.restoreInProgress = false → save = none →
        c.restore a save execute = (.started (c.restoreJob a) execute,
          { c with activeRestore := some (c.restoreJob a) }) ∧
        (c.restoreJob a).backupRestore.status = .inProgress) := by
  refine ⟨fun c a save execute => ⟨fun h => ?_, ?_, fun h he => ⟨?_, rfl⟩⟩,
    fun c a save execute => ⟨fun h => ?_, ?_, fun h he => ⟨?_, rfl⟩⟩⟩
  · simp only [Cluster.backup, startJob_inProgress _ _ _ h]
  · rintro h err rfl
    simp only [Cluster.backup, startJob_saveFailed _ _ h]
  · simp only [Cluster.backup, he, startJob_saved _ _ h]
  · simp only [Cluster.restore, startJob_inProgress _ _ _ h]
  · rintro h err rfl
    simp only [Cluster.restore, startJob_saveFailed _ _ h]
  · simp only [Cluster.restore, he, startJob_saved _ _ h]

theorem backup_saveFailed_drops_handle :
    ¬∀ (c : Cluster) (a : BackupArgs) (err : String) (execute : Option String),
      (c.backup a (some err) execute).2.currentBackup = c.currentBackup := by
  intro h
  let done : Backup :=
    ⟨newBackupRestore .backup "c1" "test" "" "" "" "/backups" "" false false 0 .success⟩
  have hrun := h { newCluster "c1" 5 none none [] with activeBackup := some done }
    ⟨"test", "", "/backups", "", "", "", false, false, 0⟩ "save failed" none
  exact absurd hrun (by decide)

end Amc.Models
