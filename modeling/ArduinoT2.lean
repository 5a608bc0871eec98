import ArduinoT2.Flash.Protection
import ArduinoT2.Ota.Safety
import ArduinoT2.Ota.Gate
import ArduinoT2.Ota.Upload
import ArduinoT2.Ota.Install
import ArduinoT2.Ota.Independence
import ArduinoT2.Ota.Exposure
import ArduinoT2.Serial.Fifo
import ArduinoT2.Serial.Mutex
import ArduinoT2.Serial.Preempt
import ArduinoT2.Adapter.TklPwm
import ArduinoT2.Adapter.TklAdc
import ArduinoT2.Adapter.TklGpio
import ArduinoT2.Driver.TableSafety
import ArduinoT2.Driver.PwmStart
import ArduinoT2.Driver.AdcChannels
import ArduinoT2.Adapter.TklWifiState
import ArduinoT2.Wifi.Events
import ArduinoT2.Wifi.Alternate
import ArduinoT2.Adapter.TklWifiLp
import ArduinoT2.Wifi.LowPower
import ArduinoT2.Adapter.TklWifiScan
import ArduinoT2.Wifi.Scan
import ArduinoT2.Wifi.ScanSemaphores
import ArduinoT2.Wifi.StationStatus
import ArduinoT2.Adapter.TklSleep
import ArduinoT2.Wifi.Sleep
import ArduinoT2.System.SemaphoreCount
import ArduinoT2.System.QueueFifo
import ArduinoT2.Adapter.TklAdcRead
import ArduinoT2.System.QueueRing
import ArduinoT2.Driver.AdcRead
import ArduinoT2.Adapter.TklTimer
import ArduinoT2.Driver.AnalogWrite
import ArduinoT2.Driver.TimerModes
import ArduinoT2.Driver.PinInterrupts
import ArduinoT2.Adapter.Net
import ArduinoT2.Wifi.DhcpStatus
import ArduinoT2.Flash.EraseRange
import ArduinoT2.Driver.PwmArithmetic
import ArduinoT2.Driver.AdcConvert
import ArduinoT2.Adapter.NetReports
import ArduinoT2.Wifi.StaticStart
import ArduinoT2.Adapter.TklWifiAp
import ArduinoT2.Wifi.ConnApRssi
import ArduinoT2.Wifi.ScanAp
import ArduinoT2.Driver.AdcBulk
import ArduinoT2.Ota.Balance
import ArduinoT2.Ota.Accounting
import ArduinoT2.Ota.Resume
import ArduinoT2.Flash.Handles
import ArduinoT2.Flash.WriteHonest
import ArduinoT2.Serial.BulkWrite
import ArduinoT2.System.Random
import ArduinoT2.System.HList
import ArduinoT2.System.SList
import ArduinoT2.System.RecvExact
import ArduinoT2.System.BlockingMode
import ArduinoT2.Wifi.IpLookup
import ArduinoT2.Wifi.Credentials
import ArduinoT2.Wifi.ScanErrors
import ArduinoT2.Kernel.HeapFit
import ArduinoT2.Kernel.TaskTurns
