import D1Mini.Lib.EventMachine
import D1Mini.Lib.Interleaving
import D1Mini.Arduino.Port
import D1Mini.Hc05.ArduinoUno
import D1Mini.Hc05.SetupConnection
import D1Mini.Hc05.Esp
import D1Mini.Arduino.Eeprom
import D1Mini.MonoAmp.Sketch
import D1Mini.MonoAmp.Loop
import D1Mini.MonoAmp.Persistence
import D1Mini.MonoAmp.Press
import D1Mini.Lib.Decimal
import D1Mini.Lib.WrapClock
import D1Mini.Lib.FlatJson
import D1Mini.Arduino.Text
import D1Mini.Webserv.Publish
import D1Mini.Webserv.Sketch
import D1Mini.Webserv.Timers
import D1Mini.Webserv.Pages
import D1Mini.Webserv.Connection
import D1Mini.Hc05.EspLoop
import D1Mini.Esp8266.Find
import D1Mini.Lib.VarLength
import D1Mini.Mqtt.Packet
import D1Mini.Mqtt.Client
import D1Mini.Lib.SlotTable
import D1Mini.Mqtt.Subscriptions
import D1Mini.Mqtt.Incoming
import D1Mini.Mqtt.Connect
import D1Mini.Webserv.Delivery
import D1Mini.Dht.Frame
import D1Mini.Dht.Sensor
import D1Mini.Webserv.Sample
import D1Mini.Lib.Lfsr
import D1Mini.OneWire.Crc8
import D1Mini.Lib.BitTree
import D1Mini.OneWire.Bus
import D1Mini.OneWire.Search
import D1Mini.OneWire.Select
import D1Mini.Dallas.ScratchPad
import D1Mini.Dallas.Temperature
import D1Mini.Dallas.Devices
import D1Mini.Dallas.AlarmSearch
import D1Mini.Dallas.Settings
import D1Mini.Dallas.Resolution
