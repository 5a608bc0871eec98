/-
  Return codes of the adapter layer (TuyaOS/include/base/include/tuya_error_code.h).
-/

namespace ArduinoT2.Adapter

/-- `OPERATE_RET`. -/
abbrev OperateRet := Int

abbrev oprtOk : OperateRet := -0x0000
abbrev oprtComError : OperateRet := -0x0001
abbrev oprtInvalidParm : OperateRet := -0x0002
abbrev oprtMallocFailed : OperateRet := -0x0003
abbrev oprtNotSupported : OperateRet := -0x0004
abbrev oprtOsAdapterSemCreatFailed : OperateRet := -0x6600
abbrev oprtOsAdapterSemWaitFailed : OperateRet := -0x6601
abbrev oprtOsAdapterSemPostFailed : OperateRet := -0x6602
abbrev oprtOsAdapterQueueCreatFailed : OperateRet := -0x6700
abbrev oprtOsAdapterQueueSendFail : OperateRet := -0x6701
abbrev oprtOsAdapterComError : OperateRet := -0x6900
abbrev oprtOsAdapterInvalidParm : OperateRet := -0x6901
abbrev oprtOsAdapterChanSetFailed : OperateRet := -0x6908
abbrev oprtOsAdapterCpuLpmodeSetFailed : OperateRet := -0x691d
abbrev oprtOsAdapterOtaStartInformFailed : OperateRet := -0x6b00
abbrev oprtOsAdapterOtaPktSizeFailed : OperateRet := -0x6b01
abbrev oprtOsAdapterOtaProcessFailed : OperateRet := -0x6b02
abbrev oprtOsAdapterOtaEndInformFailed : OperateRet := -0x6b04

end ArduinoT2.Adapter
