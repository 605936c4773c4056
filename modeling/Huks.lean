import Huks.Service.Theorems.CallerIdentity
import Huks.Engine.Theorems.KeyBlobRoundTrip
import Huks.Common.Theorems.ParamBlock
import Huks.Engine.Theorems.Interleaving
import Huks.Engine.Theorems.PolicyRuns
import Huks.Service.Theorems.KeyNodesPaired
import Huks.Service.Theorems.OperationsReleased
import Huks.Rkc.Theorems.Recovery
import Huks.Rkc.Theorems.DeclaredConfig
import Huks.Storage.Theorems.Backup
import Huks.Storage.Theorems.AliasListing
import Huks.Engine.Theorems.ImportWrapped
import Huks.Storage.Theorems.FileLock
import Huks.Rkc.Theorems.KeyFileCodec
import Huks.DeviceCert.Theorems.Asn1
import Huks.Engine.Theorems.KeyUpgrade
import Huks.Engine.Theorems.NonceReuse
import Huks.Ipc.Theorems.Replies
import Huks.Upgrade.Theorems.KeptRuns
import Huks.Upgrade.Theorems.ManagedCalls
import Huks.Common.Theorems.WrappedFormat
import Huks.Crypto.Theorems.PublicKey
import Huks.Crypto.Theorems.AgreeKey
import Huks.Crypto.Theorems.ImportKey
import Huks.Crypto.Theorems.ImportedKey
import Huks.Engine.Theorems.BlockCipher
import Huks.Engine.Theorems.AeadFinish
import Huks.Common.Theorems.AddParams
import Huks.DeviceCert.Theorems.Extract
import Huks.DeviceCert.Theorems.FormatChain
import Huks.Ipc.Theorems.CertChain
import Huks.Service.Theorems.EnrolledInfo
import Huks.Storage.Theorems.FileName
import Huks.Crypto.Theorems.FormatKey
import Huks.Common.Theorems.DeleteTags
import Huks.Crypto.Theorems.DhPublicValue
import Huks.Crypto.Theorems.X509PublicKey
import Huks.CryptoLite.Theorems.CipherAes
import Huks.DeviceCert.Theorems.ValidPeriod
import Huks.Crypto.Theorems.SmKdf
import Huks.Engine.Theorems.AgreeKeyPair
import Huks.Engine.Theorems.KeyBlobLiteSafety
import Huks.Ipc.Theorems.RequestRoundTrip
import Huks.Ipc.Theorems.RequestSafety
