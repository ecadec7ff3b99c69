import WifiIot.Machine.Run
import WifiIot.Resource.Ledger
import WifiIot.Resource.Table
import WifiIot.Server.Transition
import WifiIot.Server.Accounting
import WifiIot.Memory.Block
import WifiIot.Nfc.Tag
import WifiIot.Server.Clients
import WifiIot.Nfc.Spec
import WifiIot.Nfc.Bounds
import WifiIot.Nfc.Protection
import WifiIot.Nfc.RoundTrip
import WifiIot.Nfc.Isolation
import WifiIot.Game.Collision
import WifiIot.Machine.Simulation
import WifiIot.Game.Restart
import WifiIot.NetConfig.Basic
import WifiIot.NetConfig.Transition
import WifiIot.Machine.Throughout
import WifiIot.NetConfig.Link
import WifiIot.NetConfig.Provisioning
import WifiIot.Machine.Trace
import WifiIot.NetConfig.Notification
import WifiIot.Machine.Census
import WifiIot.Semaphore.Buffer
import WifiIot.Mqtt.Mutex
import WifiIot.Mqtt.Socket
import WifiIot.Resource.Custody
import WifiIot.Server.Shutdown
import WifiIot.Server.Release
import WifiIot.Nfc.Streaming
import WifiIot.Display.Framebuffer
import WifiIot.Nfc.Reception
import WifiIot.Display.Region
import WifiIot.Display.Converter
import WifiIot.Memory.CString
import WifiIot.Mqtt.Lamp
import WifiIot.Clock.Basic
import WifiIot.Clock.Timer
import WifiIot.Memory.Stretch
import WifiIot.Nfc.Eeprom
import WifiIot.Sensor.Aht20
import WifiIot.NetConfig.Station
import WifiIot.NetConfig.RetryBudget
import WifiIot.NetConfig.Release
import WifiIot.Display.Frame
import WifiIot.Display.QrCode
import WifiIot.NetConfig.Credentials
import WifiIot.NetConfig.Segments
import WifiIot.Game.Music
import WifiIot.Memory.Token
import WifiIot.Mqtt.Grammar
import WifiIot.Game.Line
import WifiIot.Game.Sprite
import WifiIot.Display.Font7x10
import WifiIot.Display.Text
import WifiIot.Game.Text
import WifiIot.Mqtt.Layout
import WifiIot.Chip.Ssd1306
import WifiIot.Game.Transfer
import WifiIot.Oled.Fonts
import WifiIot.Oled.ShowString
import WifiIot.Oled.Picture
import WifiIot.Oled.Safety
import WifiIot.Paho.Connect
import WifiIot.Paho.Handlers
import WifiIot.Paho.Publish
import WifiIot.Paho.Stream
import WifiIot.Paho.Subscribe
import WifiIot.Paho.Client
import WifiIot.Paho.Sending
import WifiIot.Paho.Serving
import WifiIot.Coding.Distance
import WifiIot.Coding.Groups
import WifiIot.Coding.Interleave
import WifiIot.Coding.Runs
import WifiIot.Qrcodegen.Bits
import WifiIot.Qrcodegen.Blocks
import WifiIot.Qrcodegen.Codewords
import WifiIot.Qrcodegen.Encode
import WifiIot.Qrcodegen.Finder
import WifiIot.Qrcodegen.Reader
import WifiIot.Qrcodegen.Text
import WifiIot.Display.Scan
import WifiIot.Display.Circle
import WifiIot.Display.Outline
