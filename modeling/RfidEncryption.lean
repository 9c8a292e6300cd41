import RfidEncryption.Server.Identity
import RfidEncryption.Server.Attempts
import RfidEncryption.Server.Isolation
import RfidEncryption.Server.KeyHistory
import RfidEncryption.Server.Malformed
import RfidEncryption.Server.OneTime
import RfidEncryption.Server.Restart
import RfidEncryption.Reader.Chunks
import RfidEncryption.Reader.CardBlock
import RfidEncryption.Reader.CardWrite
import RfidEncryption.Reader.KeyReply
import RfidEncryption.Flash.RoundTrip
import RfidEncryption.Flash.Reading
import RfidEncryption.Flash.Provisioning
import RfidEncryption.Flash.Encryption
import RfidEncryption.Flash.Unpadding
import RfidEncryption.System.Segmentation
import RfidEncryption.System.Grants
import RfidEncryption.System.Rotation
import RfidEncryption.System.Recovery
import RfidEncryption.Nfc.Bounds
import RfidEncryption.Nfc.Task
import RfidEncryption.Nfc.Pages
import RfidEncryption.System.Wire
import RfidEncryption.Server.Secret
import RfidEncryption.Reader.Followed
import RfidEncryption.Reader.Leaks
import RfidEncryption.Reader.Wifi
