import SecureBoot.Asn1.Armour
import SecureBoot.Asn1.Element
import SecureBoot.Asn1.ObjectId
import SecureBoot.Asn1.Time
import SecureBoot.Attributes
import SecureBoot.AuthError
import SecureBoot.Authenticode
import SecureBoot.Bytes
import SecureBoot.CommandLine.Databases
import SecureBoot.CommandLine.Failure
import SecureBoot.CommandLine.FlashImages
import SecureBoot.CommandLine.Grammar
import SecureBoot.CommandLine.Inputs
import SecureBoot.CommandLine.Keys
import SecureBoot.CommandLine.Lists
import SecureBoot.CommandLine.Output
import SecureBoot.CommandLine.Program
import SecureBoot.CommandLine.Request
import SecureBoot.CommandLine.Signing
import SecureBoot.CommandLine.Target
import SecureBoot.CommandLine.Updates
import SecureBoot.Crypto.Aes
import SecureBoot.Crypto.Certificate
import SecureBoot.Crypto.Curve
import SecureBoot.Crypto.Entropy
import SecureBoot.Crypto.Error
import SecureBoot.Crypto.Name
import SecureBoot.Crypto.PasswordKey
import SecureBoot.Crypto.PrivateKey
import SecureBoot.Crypto.Rsa
import SecureBoot.Crypto.SelfSigned
import SecureBoot.Crypto.SignedData
import SecureBoot.Database
import SecureBoot.Envelope
import SecureBoot.Error
import SecureBoot.Files
import SecureBoot.Guid
import SecureBoot.Hash
import SecureBoot.Hash.Block
import SecureBoot.Hash.Md5
import SecureBoot.Hash.Sha1
import SecureBoot.Hash.Sha256
import SecureBoot.Hash.Sha512
import SecureBoot.Json
import SecureBoot.Main
import SecureBoot.Script
import SecureBoot.Settings
import SecureBoot.Settings.Toml
import SecureBoot.Settings.Value
import SecureBoot.SignatureList
import SecureBoot.SignatureType
import SecureBoot.Signer
import SecureBoot.Signing.Bundle
import SecureBoot.Signing.Detached
import SecureBoot.Signing.Offline
import SecureBoot.Status
import SecureBoot.Store.Basic
import SecureBoot.Store.Error
import SecureBoot.Store.Firmware
import SecureBoot.Store.Flash
import SecureBoot.Store.RuntimeServices
import SecureBoot.Store.VariableFiles
import SecureBoot.Text.Base64
import SecureBoot.Text.Blank
import SecureBoot.Text.Decimal
import SecureBoot.Text.Numeral
import SecureBoot.Text.Utf16
import SecureBoot.Timestamp
import SecureBoot.Update
import SecureBoot.Variable
import SecureBoot.Proofs.Except
import SecureBoot.Proofs.Directories
import SecureBoot.Proofs.WireForm
import SecureBoot.Proofs.SignatureLists
import SecureBoot.Proofs.ListSearch
import SecureBoot.Proofs.FirmwareWrites
import SecureBoot.Proofs.Authorization
import SecureBoot.Proofs.AppendedLists
import SecureBoot.Proofs.DeletedEntries
import SecureBoot.Proofs.Envelopes
import SecureBoot.Proofs.FlashRecords
import SecureBoot.Proofs.FlashLog
import SecureBoot.Proofs.FlashWrites
import SecureBoot.Proofs.OpenedImages
import SecureBoot.Proofs.FlashWalk
import SecureBoot.Proofs.StoredNames
import SecureBoot.Proofs.StoreContents
import SecureBoot.Proofs.InPlaceRuns
import SecureBoot.Proofs.InPlaceWrites
import SecureBoot.Proofs.FirmwareRuns
import SecureBoot.Proofs.FirmwareCalls
import SecureBoot.Proofs.UpdateContents
import SecureBoot.Proofs.PlatformKey
import SecureBoot.Proofs.SignedMessages
import SecureBoot.Proofs.TextForm
import SecureBoot.Proofs.JsonText
import SecureBoot.Proofs.SigningBundles
import SecureBoot.Proofs.BundleFiles
import SecureBoot.Proofs.PlannedWrites
import SecureBoot.Proofs.UserMode
import SecureBoot.Proofs.SoundPlans
import SecureBoot.Proofs.VariableFiles
import SecureBoot.Proofs.VariableHistory
import SecureBoot.Proofs.StaleWrites
import SecureBoot.Proofs.MirroredWrites
import SecureBoot.Proofs.LostUpdates
import SecureBoot.Proofs.StoreAppends
import SecureBoot.Proofs.Enrollments
import SecureBoot.Proofs.Chronology
import SecureBoot.Proofs.StoredVariables
import SecureBoot.Proofs.SigningRuns
import SecureBoot.Proofs.ScriptWrites
import SecureBoot.Proofs.TargetWrites
import SecureBoot.Proofs.CompletedSignings
import SecureBoot.Proofs.FlashTimestamps
import SecureBoot.Proofs.ListedEntries
import SecureBoot.Proofs.SigningPaths
import SecureBoot.Proofs.OfflineRequests
import SecureBoot.Proofs.ImageLayouts
import SecureBoot.Proofs.CoveredHeaders
import SecureBoot.Proofs.CoveredSections
import SecureBoot.Proofs.DigestRuns
