import Galdralag.Foundation.Fallible
import Galdralag.Foundation.Bytes
import Galdralag.Foundation.Decoder
import Galdralag.Foundation.CounterMode
import Galdralag.Foundation.Stages
import Galdralag.Foundation.Framing
import Galdralag.Foundation.KeyedTable
import Galdralag.Foundation.Memory
import Galdralag.Foundation.Trace
import Galdralag.Foundation.SlotTable
import Galdralag.Foundation.CellTable
import Galdralag.Foundation.Failover
import Galdralag.Foundation.ByteField
import Galdralag.Foundation.SecretSharing
import Galdralag.Foundation.SortedTable
import Galdralag.Foundation.Relocation
import Galdralag.Foundation.Outcome
import Galdralag.Foundation.TextSlice
import Galdralag.Foundation.LikePattern
import Galdralag.Foundation.Base64
import Galdralag.Hal
import Galdralag.PinPolicy.Machine
import Galdralag.PinPolicy.Attempts
import Galdralag.PinPolicy.Allowance
import Galdralag.PinPolicy.PinInput
import Galdralag.ContactStore.Layout
import Galdralag.ContactStore.Record
import Galdralag.ContactStore.RecordCodec
import Galdralag.ContactStore.Regions
import Galdralag.ContactStore.Index
import Galdralag.ContactStore.IndexOrder
import Galdralag.ContactStore.HeapStrings
import Galdralag.ContactStore.Compaction
import Galdralag.ContactStore.TimingLog
import Galdralag.ContactStore.Store
import Galdralag.ContactStore.Integrity
import Galdralag.ContactStore.Interruption
import Galdralag.ContactStore.Binding
import Galdralag.ContactStore.SharedCounter
import Galdralag.ContactStore.FetchTimes
import Galdralag.ContactStore.WriteTrace
import Galdralag.ContactStore.Directory
import Galdralag.ContactStore.Mutations
import Galdralag.ContactStore.Refinement
import Galdralag.ContactStore.CrashSafety
import Galdralag.ContactStore.Outcomes
import Galdralag.ContactStore.Reachable
import Galdralag.ContactStore.FailedInsert
import Galdralag.ContactStore.SlotBounds
import Galdralag.ContactStore.SlotOrder
import Galdralag.ContactStore.Fingerprints
import Galdralag.ContactStore.SecondaryLookups
import Galdralag.ContactStore.VacantSlots
import Galdralag.ContactStore.Space
import Galdralag.ContactStore.Unlocking
import Galdralag.ContactStore.PinDigest
import Galdralag.OpenPgp.Apdu
import Galdralag.OpenPgp.DataObjects
import Galdralag.OpenPgp.Backend
import Galdralag.OpenPgp.Dispatch
import Galdralag.OpenPgp.AccessControl
import Galdralag.OpenPgp.SignatureGate
import Galdralag.OpenPgp.Ccid
import Galdralag.OpenPgp.SessionReset
import Galdralag.OpenPgp.DoStore
import Galdralag.OpenPgp.SealedKey
import Galdralag.OpenPgp.VaultBackend
import Galdralag.OpenPgp.CommandCalls
import Galdralag.OpenPgp.CommandRuns
import Galdralag.OpenPgp.CardCalls
import Galdralag.OpenPgp.Opening
import Galdralag.OpenPgp.CardLife
import Galdralag.OpenPgp.Baochip
import Galdralag.OpenPgp.SignatureCounter
import Galdralag.OpenPgp.Termination
import Galdralag.OpenPgp.RetryCounter
import Galdralag.OpenPgp.PinText
import Galdralag.OpenPgp.Verification
import Galdralag.OpenPgp.MalformedPins
import Galdralag.OpenPgp.VerifiedFlags
import Galdralag.OpenPgp.PinChange
import Galdralag.OpenPgp.PinAgreement
import Galdralag.OpenPgp.RefusedChange
import Galdralag.OpenPgp.PinStrength
import Galdralag.OpenPgp.PinMeter
import Galdralag.OpenPgp.RetryReport
import Galdralag.OpenPgp.ObjectMap
import Galdralag.OpenPgp.Reopening
import Galdralag.OpenPgp.KeyReload
import Galdralag.OpenPgp.Projection
import Galdralag.OpenPgp.KeyRecord
import Galdralag.OpenPgp.CcidClass
import Galdralag.OpenPgp.CcidTransmit
import Galdralag.OpenPgp.TlvCodec
import Galdralag.OpenPgp.CcidEcho
import Galdralag.OpenPgp.ApduEncoding
import Galdralag.OpenPgp.ResponseChain
import Galdralag.OpenPgp.Reassembly
import Galdralag.OpenPgp.StaleResponse
import Galdralag.OpenPgp.SessionMoves
import Galdralag.OpenPgp.CardService
import Galdralag.OpenPgp.Bringup
import Galdralag.OpenPgp.SealedCell
import Galdralag.OpenPgp.Generation
import Galdralag.Vault.Shamir
import Galdralag.Vault.Sharing
import Galdralag.Vault.Recovery
import Galdralag.Vault.Secrecy
import Galdralag.Host.Clock
import Galdralag.Host.Text
import Galdralag.Host.Error
import Galdralag.Host.ShamirOps
import Galdralag.Host.ShamirRecovery
import Galdralag.Host.Audit
import Galdralag.Host.AuditChain
import Galdralag.Host.Groups
import Galdralag.Host.Membership
import Galdralag.Host.Contacts
import Galdralag.Host.Sync
import Galdralag.Host.Directory
import Galdralag.Host.SyncImport
import Galdralag.Host.SyncSession
import Galdralag.Host.FingerprintLookup
import Galdralag.Host.ContactSearch
import Galdralag.Host.TimeFilters
import Galdralag.Host.AuditCsv
import Galdralag.Host.CipherEnvelope
import Galdralag.Host.EnvelopeCodec
import Galdralag.Host.OpenPgpPcsc
import Galdralag.Host.GaldraFingerprint
import Galdralag.Host.EphemeralOffers
import Galdralag.Host.OfferLifecycle
import Galdralag.Host.OfferIssuer
import Galdralag.Session.Handshake
import Galdralag.Session.Protocol
import Galdralag.Session.Network
import Galdralag.Session.Agreement
import Galdralag.Session.Misbinding
import Galdralag.Session.Rejection
import Galdralag.Session.TrustStore
import Galdralag.Session.Wire
import Galdralag.Cipher.Profile
import Galdralag.Cipher.Labels
import Galdralag.Cipher.DomainSeparation
import Galdralag.Cipher.Layers
import Galdralag.Cipher.Cascade
import Galdralag.Cipher.EncryptThenMac
import Galdralag.Cipher.Registry
import Galdralag.Cipher.RegistryHistory
import Galdralag.Cipher.ModeA
import Galdralag.Cipher.HkdfBlake3
import Galdralag.Biometric.Evidence
import Galdralag.Host.ShareArmour
import Galdralag.Host.ProfileStore
import Galdralag.Host.Registry
import Galdralag.Host.RegistryClient
import Galdralag.Host.RegistrySearch
import Galdralag.Host.Messages
import Galdralag.Host.MessageRecipients
import Galdralag.Host.MessageReaders
import Galdralag.Host.MessageLog
import Galdralag.Vault.KeySlots
import Galdralag.Vault.SessionKeys
import Galdralag.Vault.SlotContents
import Galdralag.Provisioning.Personality
import Galdralag.Provisioning.LineProtocol
import Galdralag.Provisioning.Boot
import Galdralag.Provisioning.PowerLoss
import Galdralag.Provisioning.Usable
import Galdralag.Provisioning.Breach
