/-
Character names: the scripts from U+3000 on, in the form that `Text.CharName` reads.
-/
import Docsmith.Text.Packed

namespace Docsmith.Text

def eastAsianNames : Packed := ⟨55821, "
 !1h_g;)4q8W1gqV[Gd=EL,owg|&O=T2MwPf>tPqs+L$?7^W3DAP1S*5_P[o)yv!,nUlrveph*42X]|+SFeDYVrwf8vMY]!WnW2q
 adn7Y#VTaCFLc[R4SN!+rv0K2@>?f9MGdDvjDx#1tGN8sJ+.(h)]xlC1BQP#rruQm4(KaQV~G)qgjlksEX<cD)3xQEZ#!.Iu=]R
 :Pv]W6TaqIuoJ18NyNrjxdN!YINNUTgun0^YyBJu?h0Sc!;^mI1(9stGf+=!t|gkX_+>@##CYlBd+2)H<,x3W|cUW$VitjIJb~~
 #~%]0Z>RUVqMU$KE~otv*G#QcSs6)]IZmdZvV4l)VRxmNb%j+P_:m&WHVXv;^(0AhgU11O|Q+iSk(C!(vUlLgq|tI(d0U?fFEqO
 +x=%PQ^?I)%GhBD8HIGL:t]5B)E9FVb*yfnwq4Bp:|aT$u9#kiP386wsKGORD#=<P_v?ubG)zfzu(d|fFMlmkxX2MgU!j3JGfF1
 c.xyDKz~a>8oi!0F>rp>@#BEwZCW;lqRa3luxwKvp*L:TON(xoxcfUW%G$@q#%*cxO?nr^?f@&kQ5+kma0!n@|hula?X<~^eC:I
 ?<<(.r1m!6nS9me:J_dj+tOZ41ao2Wa4PXe0#7>3.:Asu&AjE7k*6Q#nuF?+8.rPz??,VoCYQ]6;Qe1kBFAzH+8*36VFP)&=(^N
 St=UM;e6j7=QOipCt2P4]GLsz3f!2ZVW@nUt(>[g2xq8#|(&P3+jbzgs#xD!Z(7Y4s2:m^<hRfFY1Jcg~F3&=3VTmL>R[#^ac$V
 xLG=V51^rq~UT09BTi;XyfQ2+o<GrC1O3h_.3=>?!w@M$9[RVZtiW]+vniye1=Ib&pkR?+TsozeU!Y>7kGub>J$G7d5+2!@1k0#
 K1yePx^]8I%*^1GRZ:qOX%f<HBsVs~8)wXCJ4SDY6(Hk9s3wT,2aM@REZ]AoAAN0Sj=j[z24:a.;ja$3:#S:dE6^qV*=Y:#doTT
 PkP>Gl:^=Z*(a+wd@Re!R8;BqCJDs<PHtW+l$]Ra3ORaIxnp^6#=0F2SN(qql=V]cWNmuNiW,@erQCVQMO)0H#T%OB5Y6HY,sxW
 [[r=~IW6x5O0y>vRPB9bmQ9yqPxB<dW>UQ12JJFXhTUOLygx3!!CJ(&JBnvcxae*8jiVDilSaGRzhtF%*2L[id0@S.?KPNa,Pd>
 iIcpI2t9Tjw$6T0w,MV2.iekOyGCB|?8g,#!ZK0|#s.)GtN>0=>FI=Xp5b~.y]>Na:DDc4(YelIGb;h$6~:sJ3nJ3[JYAKg7MaU
 a?FKMX[#<;U$IW)M_KjC^e&%r^1IeJ,.[~ClIBhysA0|lSHysjF~nd>!u)yk$7Q((Z^CMV(.RFfzRZLBQcgiNuDPZiaxaBS;VBg
 ;1b,XxHTMIccyvmQP1p<3o&sPI,QSHd07_S3064V##^8a=PyW,o_$Mo?OvALZmy?zqWK)^QuwMNwz[MnoZEvG<FdoqG*wj~s@dL
 4w@%C9pl9be6<fx|<$CoOn|72bB*SU|I5Q]%VE89qwq=x:BFu@Z2_^v66]A4$iO~u+Z4J!78A.,AzO^AaTfv<oIgwj=S,BR7tlL
 WV8vW_Y^R(0fr%c;H7C5DZCony9]P1k4+km1d^BPleizx6[?OAKtAH?:DBETsf!98??Y=S2_O+t$ULV4,GGUJ;AX$KV1o&]XQ=m
 (N]KhkQj3TeXm#Yz^>!E,|sIpQS3y9$4Gc.a0(P!^)Sz]D2k2EFHH[l54r.5g|80(v0[)lk^x<*>TehB@Dq;5xdx,)=(Q^ng+1!
 LY@Oy=)=A(Ko3kA+_:fL5<k86pa|EQPU@^Z[eoG=GqD_,$FMMl*t?*TCMnW:ZufVWWa1a]9vO~nRD7C[uhNTMh(7Hx6|G_tEu+$
 QYI#w(wSKiRGJTiD=ujr%[[M2,1fq!B@2%h(=og+Vzxc6*EeI[)TjcrQqAe=GA5CSX0O7QM:updxMitf&55$[AEHl)04IIGHXG^
 QPpV]HTr?1y~s.rNyStWw]w%S_^|r$5).RkdK|^vSFW^On*5HXsOmOcT;gSjAfIH5;!?#VT.]C+,6.|%K7]*NAlCC44U+WZ;:pc
 ZWe(EkMnprszmL_MzRqYSHA<i~==H;re&84eAg5<>V4=@l@gLC$nXxdK5Hs%0)oNY_I]x&+n_~Z%xlTb]0WJv=b)ric^G?Q|8_z
 Nit136?5RQCdQYI^w][LcSe+q>>v@1Q67L3(#fwCjwJ%JKRz_AEOxSi~,Dl0U<FlqO4$fwKgPnI40$ym:8yKK[QOy8*@vX^@m:m
 nOy6Y@I|o<:nzm_B+XWeXDmY@Yux]MJ&6LGS*~!tw8gQeU.zj<YtN,<$fEtCMfDUB(v1hPoNg?hRZ_#~Ipz]?5E#jZ=X$zAKant
 tiTAS]HP1MQ_Zt#FrpI([wJEu@Naz=E]cZ>]k19]0%Jkqu8FW63Wy*Ld]%siuVZ4$1,k<&Rq?Uu#>s$&2PhWZC%0(o,sM^!3jMo
 k6M55@*amwJTroZqVO:~=vr0e4OQ(X)T@Iy:J(VKRz>O,*!%qV#*yLYK9QhW#rFCM&2PawI@<M2z*8Vx1E1=pX~Gg]V1y<M4+>j
 nt79m;+!iWNY@Dm>rak)Z9qB_vpDU*[Ik@DBQayY20OZ83]MSJ(aLB7Xv6u7a(t^?Ow;i$d~(I]p)#x=DSPR$u%i,nW<aN_bK:?
 |zl#TJhqC=B]rDPhpke=NJ(A~A@C4z6412MM7X4O5KebfN*xKUVu)R@lJYvJ0]M_2qu6lFsYr8_c~b~G>~IC00&RF)rh>>Mm,?2
 1a0w]zU*Zy|OjH(x;deKu@JSE!*=_N++Tk%B0z0Db]S%89ISElNLmQ_QtzfhHFhGLAhoUfx9aD%uZ,DIrnpJKllC2*d*Xl|4MVk
 .X0gXm@1z%3rGJ*qOffNvOAxDw0+cNqh]ayyKDhvx&k^F!gV1lkfT^p5(zL#uR;B5w**RRNNS7G^ACC(Y.i(M.O)A]s?ECGYB4P
 j[I]S2Mk.R)RJ78Q!<hQH9]xWk]GTkGL?G669!4O9SwSljB|X^^VVOogd,DozO72RV9zTxf0>[ZV^qsWsvw(I!$VD9J3L,M<F!E
 |*>*K,)&tUKW7wR|fm[%7F31HxcC$I0Y0;1#CK1e1<I_CK%_c)Bt)q<dsF[QZ*cvw1Z*|HuzLq26lJ,>jz2vre=@ImWP%W6!2vc
 [JrF;blLwfvwGDw^o.Q]nozsOK(#P7y68Z1R)1a,Do#@xpOYbtvT)swqV8u1aUCe,~pK=t]>)CE,(ooe.6vhp;>_^:i7LT4Ki.N
 AcD^&Y,&.^S7).0nkI5(oD+NrZSKTT=WR)U*PUR8OULn<#![vt3#b=r9qtSMN]p[N4b],%A|[.*Ur>WAgX[%H<fUf_R*)(Z2_KJ
 l?5~tEPa<k5QBT=XxH;8bcj0kcvIkNH48hY]<_d!(.d359uHZ2<@GkhRo^B%2C3jiSK8@7tE#J4=kOZ)*0zN#Gd#^nO>9G@HT+Q
 Qh0QYxyDKHL*W1eS[qKn7[hnab:pK8]k.DX85;zSWd7!>1ysl:Nf!B8qu!p@QGy|Z)avJeAM)=zAU*L(6y9s4N<V!vicT&3,Ze;
 CKxHiGbK?*OKi^@X&@k(pA8fL#Qx=t@+^eq|$),yMi7XMoOPb*wsP$KwLf~T_D^4@1h=p:uY>5exuicr~%o.j#hZ~4nNgezHA7F
 acot0P*?(Nf]Pr^W836gJdUX|)1U.FR4Yl79U#>;uJsWYbuQVAh&6]ihs_O(stXrN6H^6DrMDMi&5D)ReHzu!OGiXHrdYt8.R_.
 >:HiaNkcv3x;YHh2+x|Vn~!:nZ?OVrPs&0T@7po.vX,O[;**orlWq9:.4m9u)CMlEfgcO!b:p$&TCSm5z2F5[Kg5piG^]|QxvKT
 PUj4q*8r[G(2U<0$g.Jg^?6Zfl@=ZU~D#~;oyl)&Tv6hzZo8G,LM?o9Y*]rQhPoOEwBoxCNdC%N0qB32!!]wm4|RHar5H5=$lJ,
 ~qCWVES*0.O)_mOUw:?K1PWwa]&#s*9xEp[%K]a09PoQx9mD8U(BNSCCrC9MJ6~<dQEOrMOSAB:o~9&mSYTUSSTe#_gW)j1yU__
 %sszwED,pD@5$&EOOj*Kw#a&*&2O&tVc^QLWkCr0Ldiv)^)^GF&^,t%=fJhe.m05l<F@+ByLA4o+Zqhf9yU0^E]l9]xSros=.8(
 R*la;nDY$n7RO__y+WG3JvXf!_jvvK7Pqp(JVG>%iVBlKo39u_8j,44dKEBWauzfg,AbR^#7VYugH+:@HvEONj+Lg+KKz].rs1l
 @OcMtHdVp^g1.P7.3,a3>rvHOCPCavv%d<w^QQD5jM!@<>nsy2K~(!F%3U;%)EbO?!IWVH3L0&nL1=0<jN>tRaaC[$>knww8_2%
 N1nT,+a8~*|=%yS:.UbzfVk=(^@;(A0S;~.r^]<h@R;IX^F[(Gn#BjB$<w?TBB&:>0bfET<r1Us1BZkYd_:R*sgs[;EeVGnAFF)
 lrPZs+ws_0~>q8Vf|a*=T4?dn%^[VFua970&%W%wh2N#yvThEjWaUMG8CG7]B[R+A%VptqeCixqS2%gZad%>z1vhzJU:;YP4uTH
 eTOX?CmXXf6R@t:yZrnOcZIdOVFqOGr|JEq;rOwi5:g3Hv?4$gEG%xcEn~4R^C:<Gm(WBNqjbq,2*5cm[2K@+nR]bA#>p!4)lZp
 UdN*V,!@6rzHcbZpM0h3lcf<G44rDrvN?>EkcE91nw:1dsC5|*8$W;jq3TyG=Y<#buVZCK+o$M)ljO=;$?x>*B(heWx8SkfX57f
 ZMj>N5orAWJ(vIAvXWZFf]Taw.;#N1Kfp#gRhg3O)5>4_o4^l<YARLW7J+B|^L3&8>N.RQczcwBB8esJUW^9dk#H!xl#*)sA7m=
 o4!FH!38g^eRTBa=LgY2&2<LC.VD4NL=pX^16_h!HnZV)#qGt4O?<>PR#(SzlOb3XIUTEoEc6qu9@!aUW*$?;1)>8m0A)+~81Fe
 =mm3z!_LO3oTTD=!QB;%Q<m4#(g]]_FENT)_un]pr^(ag]jma&7Vl.eQp^Cuf,FwxF$hwb]KoWf$vVl._vO,]mV1[^9hqd3uf0l
 )[jizKGHpJOnk(&?_IgaL,4iDG(&BHb6FkJxbQ&aoVhZYc+a_8[;O(a_Kx(?bO^!oVYuQ3H|xmY2=Z5(=h;g.&?A7XEU95$&AAK
 hz,2HmCiCj_F8AD>bxDFuU7Z~*TzBbRFa6hY^LTYrW)Ts?U+7|xj[*D$bjQ,dTs)OgfO(W+:5go$Q#i+ro4]QNo%@_T|HFc[ZU0
 !tXAhFJBNkR;CH;WQfn3>dH9%o=?#r,uWa2YD(dHO0MtY!Fn#ajgzEiry#q,pr$6~43xP=h%;]i12ge8NWIb.]463GK?_uO)ia.
 ;Oik?]bO:Uww8<xq+7+lg?>b#h4(_51cFu8.Q6X<#3logGI6gWLkxCHTFeV:,upkB.;BjeI!7tMqHtDh:O=vB7GSyhr!7I29$Zu
 jj.j5k^q[Lr:o6)4(ik|9KJd37ar[Hu7f#cF3aC$eNxdFDO9m.O8&AJxz+V0_Gn)|UJvTmNxyfP1)I77m<auqH66RXGnMjE:#>z
 7qkybVG[|mNq>>#@F6H7f[A<W]|Ff8.R+^X^EnqPX1$i!kDODZ^b4o9>+$zYVceOP=mfB~n4Pwv2Ebe|d|F43R~4YG+rcx)@sS%
 &:SJJo$kP<:#^yz7??&)JGY:fR)>oHiqfo+i>h8UBB*B,e)+jpQ)tmg(H|?l1WO71Ma5ZT+zqo9zY7q$>R%Cj&yv$smOqr=nDpJ
 F.FKR1Tn3hmC>0r;JUPXYC^E._og@Ba^2&6oHy)e~Y)%9H#9XAuf|R&vk!88M(+hM95;?7?):$_1p|D_D1P|)VB|0e)u2of1)rN
 =e@pL?(t#+x5S,tZAlVxr?s96@<_5mJQikENNNuWoQMRCO4Q0t:anqb)Xa^aQb^.rATN@~SiJ.ra>*,U2J3Hu4a])o=5$E_)rz+
 :6INNA[Z7#@FAU&>GN9<G<cmlLAS[.,$eeaZ,%pj$,FFHF4js9Rv?4^;RP)F+9<%T2^6Vd9nE3#+fD6VqOH$+3jJ@OIbH.cB7$)
 HrMgB1T|L_%o.6ru8CpE1C5:Z+1@_gRc2sVj7Ps8Qbg)~b[DEeWheTm0oB6W40Vm?P^;2ObhKpUul3!t&]0UyX:tH+GCS,Xhhv2
 !(6k#VWY=^kQ)[K6#~jKRQAy?4=g_6^?ws4icY.T(&R1P>s5cSvLAbE<D?L.ldwl8x]KGa_#LjHHFxhUVO)>!w0FgmBhy8?VZJI
 W|.(UB0Nf=1H]$h&Tl$(wnb.Z.o*w,3(0Wejp7.&)8:9P@ni0iT6PvW6+|FU*xg_R|++m4p_+G$fXS3U6i]g%~ciZG|M=O59wO#
 IYkpoicPkoCe0k<qJHPKhwPAKdY@3T|l|)X|YctttJB~tl^W%ZWivjOBBUs7D3AK6Mgv=q_pVgpIE*B;umCF?&crSIfMSa%NjHE
 bPz.t)@K;*6$^_F6KF&4#qa$FdU08X^q$qGWOr8B,a#fzWa88o[AvQL<R3#GLRZWRrMEji~W.yL6BRDijF+>>Ch4Jut)|biUR5O
 cG2pVL=e5;1Z)2>4mSbIx5S.JD23kT?CP>JW1Fm*kG]I?l^;CTztOfz2oR#IljaYeDP7eD;hu0mdLh[IwO:,8i))0~?N(]GN#Zp
 sQkypIu^gn;SU[fj$@4+EdJ^>2t7_sJI?KK*lvA~jWtXO[P@Txi3@7$4?gq?ae;,)N9te0m5pmhns+oRi;S.pN$JbD+c&VSymJq
 NCy(z4j?CLloWv~S6Dmf3].Yunefxyva_e~XP7nJXB!(Ixh!mKEN;*?ymtNkEx=iTd!J2I8nE0swxw2MCIs@kgC:m]*xULHN:d[
 +03:>@QN1?D!kbH;]6ss>Ca|GTi3C3:*HDLA:Dc+J,Sv;i$ibr^@s;P5bnda_(CNd|9f!gro,J*NwYQDO)Oc_IJ9NJG#x;ICRV(
 ?2G8]4MO4_s8@t,iAHRUlHj*iTdH^qX.N#OaZ8;4F4&i@Yqpa3#Bc>x^GHhbX:V<3r9ye%HZ3SObg^K*P)kt@o$g3YRk+ZbRSz%
 hR)u6GYwujj;yEv(&|TG|K3L*Xm~:>N.>0e~Ze&q+Z243T4dU9M?:=iW01yKZW.M~w%?~,N&L*qEm>wOFK~q5|Fj46;LB=kLVG?
 !j]oxDD.hBHB;LOtihJg<0rS_xma$W)lxVQG^%,rBqqZlpui*M)y@LZ3V3sCCU=QzMcLt07n*^PD*#2eEr=u7(8MeO,3YcQVuMH
 tWZ9VkQV!yRh:7w>=w,XM6q]sh0(Vl%<aL,pfHmsStgl0@?te!qp80Dw4Ep;ap!Xr>|=_LOm07kGQ8)NKaS!+mk|uv]|nZcRB~|
 fEN&V.z^|H~Y7.Xo(xA~uvAa:MG;C2d#0d$B*b#WRMOk0r4_aL0gYbNa@KBPTx55eNSsvuCU^nXt9A$)Lhi$4PFO:[#T&?,tbv3
 =gpOo**<Ck@pt~?[cl@y6Citf3s[2knB?^H3%eSXsgNs],XQuzNK&KrjA)DA+$U(3!=IX.DyUJNNN$tNw^lDr[^)HFsko=yAkzS
 pJ~OywWqH8S#kri_q?J1yY:ljy(]6,qt%y#_38@x<^Yp5xl>J_.%nW*<L!7V?G,Ug5i>y^txOi3][S=tn3(oY~Mx<jKcWqUcwbt
 D5?1OX)7h0w#f=,vAY@4*%iW565o5xD;:6FPRD.6hK&N?^KHez3EG#wnfar!@3ufKz3ajG71^8x_kT_jP3?xKN[MyH24mPdmNP#
 +t~0hB3j:ZUV]%e1CYQ~S2:z^k43^>qR%Ilk]+)7AGcXY<:o(|t=neah!oU@JlH>J@af^f*K8AMh+]E(:9vG*[B!z5ex?9!1yek
 D0;lM;UHRDxzyy*Q~xzjrHSuGbI&ynDwhSdp,e>02j*:V>UT$c5fzb*nV:Mq+C2&9RkNN!<18yPq1%d2ic*OKNAL(oa5dRY?.6k
 F^~pl6+G>2nc(_S$SUdH?fy.6,@7[R$kx?cm(t4[hU,erysG_Z5skt~A:?H10$*B*fh*hx|!@kGQs)s@+=|C$+Jv>.>.kb$SUzB
 $e>cgBA:IwMb%9,J4rahTFVa);4SX#7ie,TjVv!U(^VQP$t=1zccEr%SC[dg&ic,faJk!EZTxY$KDF8N7!>zbM|j1~.#%[l6.K0
 K]pJ4Dj(L>i|r5nGH8_YU&oEat^|9po4$g=BlH&mO~bo!i;qWTC7t>|YFwlN$ejVudFA6!!w~Q_w[w4dGT8l%bH.UDOtzbbCC)5
 B:h=dKKtU+VcV.5%zvT!V5VP5Qybs!u<7mxdZocL?Hd,]qhs@6Zp&$DB!,?@%9=GHRyC[VAjcx|Bk?eU%TfN|R3KDXF^%i!2)*j
 iLoQDrzAD09$Gz1|<jCu7:ga_[uZk6W4Iky.8;.o=Ae2VesLn:9MzzVd9u7_E6;TMW1GbX+:WDOyypFh&9*a[0,|4xcr0+uA]0.
 2SiWdmh?L!czV(pAgdCVrYOcAe>w*0U;$ansgnqE3A6y1tQPzyZYg*CtX>xerrVrYPCHpdux9OovCet1Ozuu_[W2H6P.ith~.tP
 K8|aJcl:]k77.]ikP7xoIfP2XkK9J*4vs?;;qr_4<_[iYSLDmm2!wfgV9oCY|WH[F8PrzVMs+qst>e;h38lV^NqEcEr?SAbUh9l
 p$0,a3#@^m|>;=L#gEYMvrBK0D1fP;jW!wi,RVz9#UL(C@_XZ+H9#P**^wLKB(]wT*ecM]01.4eQGUpAjd~D2[&04@iByKO|(qw
 Bs5ygQ)fP(.yh[,juw>&p$I~T(A_3UN<H@t(j^@2gcD!+TBFEXvUk^:Lj:E>^SlcNNSWxMAb~FzK1Z?#rfR2I;fggiEwE(mI.Xi
 z]eP_C0WL)piGmanO<:77RCk8Sw1Z.6dj98NS(iXg!$M05X*@zxM1!Ks%jOMf~j:qZ4I1WFPOFhsyDzUFY%y:u@UW%ra|pR5E0Q
 Z_gp+q%~?<|3DFC1qcv~qN<k,c)Fwk3i$~~^LWdSr#|e%CzxNV.=ScTrP1uTXvemDjUeif!L^1,A7l)*yYa]4*w6m!J5~@Q9(Ka
 +t*hKebn%X@gxh|>uK]qC@?&fH])Sy+;(a,Xq_,|=%4P$1HsXC[1]Ng0(kG!fd6t!$YXSuNr58<,sbIl1|>HcRS6M)Z<CF,H^8S
 _fmK6s*m#N7H5im0uvgIHDlzc=!7ZqQ>;^8P,<u(*MiPe#J;DB;5^Pa.Cb,5TDK%0K<nh8MWD)0y?Qa_B>TW#4Ax<]4BX2(jV=V
 mIK@jp3.N(Iaa9N74LSEX.=_p%tK0zj].V&AJT0Hlk+g?nT;4osIPCQ#|:[|BmIzCVh,v(A:X96@;raoa=a&T+6tusan]]RH>[&
 (7FsY>o0jtt(jg<!AiMM)FJ>e2MY>KggX&%@Sy4g!"⟩

end Docsmith.Text
