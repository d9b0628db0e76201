import P2PMessenger.Node.SecureBody
import P2PMessenger.Controller.Export
import P2PMessenger.Controller.Rejoin
import P2PMessenger.Storage.StoreHistory
import P2PMessenger.Crypto.Acceptance
import P2PMessenger.Node.KeyStore
import P2PMessenger.Storage.SaveMessage
import P2PMessenger.Window.CanonicalId
import P2PMessenger.Network.Namespaces
import P2PMessenger.Controller.Identity
import P2PMessenger.Network.RoundTrip
import P2PMessenger.Network.Forgery
import P2PMessenger.Network.Replay
import P2PMessenger.Network.Authenticity
import P2PMessenger.Network.Peers
import P2PMessenger.Run.Network
import P2PMessenger.Node.BoxLengths
import P2PMessenger.Node.AtMostOnce
import P2PMessenger.Node.Accounting
import P2PMessenger.Network.Delivery
import P2PMessenger.Node.Secrecy
import P2PMessenger.Controller.Shutdown
import P2PMessenger.Program.ErrorBoxes
import P2PMessenger.Program.Correspondence
import P2PMessenger.Program.Completeness
import P2PMessenger.Program.Fates
import P2PMessenger.Program.Wanted
import P2PMessenger.Program.StatusLine
import P2PMessenger.Controller.Listing
import P2PMessenger.Network.PublishLoop
import P2PMessenger.Network.KeyCache
import P2PMessenger.Node.KeyDirectory
