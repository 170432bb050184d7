import TruckLock.CenterReload
import TruckLock.Eeprom
import TruckLock.CenterHome
import TruckLock.Truck
import TruckLock.RelayWire
import TruckLock.WebSocketsLink
import TruckLock.CenterTwins
import TruckLock.FifthCenter
import TruckLock.FirstRelay
import TruckLock.CenterCredentials
import TruckLock.CenterReport
import TruckLock.CenterRows
import TruckLock.CamStatus
import TruckLock.CamOverlay
import TruckLock.CamMode
import TruckLock.CamBuffers
import TruckLock.CamFrames
import TruckLock.RelayWatch
import TruckLock.CenterMinutes
import TruckLock.CenterRelay
import TruckLock.CenterVerdict
import TruckLock.CenterRequests
import TruckLock.CenterWifi
import TruckLock.CenterLimits
import TruckLock.CamEnroll
import TruckLock.CamNames
import TruckLock.CamLink
import TruckLock.CenterButton
import TruckLock.CenterPress
import TruckLock.CenterSettings
import TruckLock.CenterToggle
import TruckLock.CenterUnlock
import TruckLock.RelayLink
