import StompRelay.Line.HeaderList
import StompRelay.Main
import StompRelay.Proofs.Config.Layers
import StompRelay.Proofs.Delivery.Order
import StompRelay.Proofs.Frame.Canonical
import StompRelay.Proofs.Frame.Escaping
import StompRelay.Proofs.Handling.Farewell
import StompRelay.Proofs.Handling.Forward
import StompRelay.Proofs.Handling.Race
import StompRelay.Proofs.Handling.Release
import StompRelay.Proofs.Line.Outbound
import StompRelay.Proofs.Line.Stream
import StompRelay.Proofs.Message.Declaration
import StompRelay.Proofs.Reading.Encoded
import StompRelay.Proofs.Teardown.Bulk
