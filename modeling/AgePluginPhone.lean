import AgePluginPhone.Android.OfflineEnvelope
import AgePluginPhone.Android.PairingDeletion
import AgePluginPhone.Android.PairingOneShot
import AgePluginPhone.Android.RecipientText
import AgePluginPhone.Android.ReplayRefinement
import AgePluginPhone.Android.SignatureEncoding
import AgePluginPhone.Android.UnwrapOperationState
import AgePluginPhone.Core.Consumption
import AgePluginPhone.Core.MacReplayGuard
import AgePluginPhone.Core.Minicbor
import AgePluginPhone.Core.QrSoundness
import AgePluginPhone.Core.ReplayGuard
import AgePluginPhone.Core.ResponseSealing
import AgePluginPhone.Desktop.AdbExclusion
import AgePluginPhone.Desktop.AdbGuarded
import AgePluginPhone.Desktop.AdbReverse
import AgePluginPhone.Desktop.AdbSharing
import AgePluginPhone.Desktop.DesktopCleanup
import AgePluginPhone.Desktop.ExplicitPair
import AgePluginPhone.Desktop.ExplicitPaths
import AgePluginPhone.Desktop.IdentityText
import AgePluginPhone.Desktop.KeyRoles
import AgePluginPhone.Desktop.OneExchange
import AgePluginPhone.Desktop.PairExclusion
import AgePluginPhone.Desktop.PairingSession
import AgePluginPhone.Desktop.QrScanner
import AgePluginPhone.Desktop.ReplayStorage
import AgePluginPhone.Desktop.SelectionRule
import AgePluginPhone.Desktop.SetupJournal
import AgePluginPhone.Desktop.WifiDiscovery
import AgePluginPhone.Ios.DecodeTraps
import AgePluginPhone.Ios.FileKeyAuthorization
import AgePluginPhone.Ios.PairingDeletion
import AgePluginPhone.Ios.PairingRoles
import AgePluginPhone.Ios.Recipient
import AgePluginPhone.Ios.ReplayRefinement
import AgePluginPhone.Ios.ResponseSealing
import AgePluginPhone.Ios.StreamOutcomes
import AgePluginPhone.Library.AsciiText
import AgePluginPhone.Library.Bech32Text
import AgePluginPhone.Library.CborItem
import AgePluginPhone.Library.CborPlain
import AgePluginPhone.Library.Machine
import AgePluginPhone.Library.Recovery
import AgePluginPhone.Library.Storage
import AgePluginPhone.Phone.CborAgreement
import AgePluginPhone.Phone.EnvelopeItems
import AgePluginPhone.Phone.IdentityLifecycle
import AgePluginPhone.Phone.OfferAgreement
import AgePluginPhone.Phone.PairingAgreement
import AgePluginPhone.Phone.PairingBinding
import AgePluginPhone.Phone.QrAgreement
import AgePluginPhone.Phone.RecipientAgreement
import AgePluginPhone.Phone.RequestAgreement
import AgePluginPhone.Phone.ResponseAgreement
import AgePluginPhone.Phone.SignatureAgreement
import AgePluginPhone.Phone.StanzaAgreement
import AgePluginPhone.Phone.StreamAgreement
import AgePluginPhone.Phone.TablePlatforms
import AgePluginPhone.Phone.UnwrapExchange
